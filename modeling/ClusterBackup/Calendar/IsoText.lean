import ClusterBackup.Calendar.Timestamp
import ClusterBackup.Numeric.Power
import ClusterBackup.Text.Digits
/-!
# Timestamps as text

The ISO 8601 forms in which timestamps are read and written. A date is a year, month and day or a
year, week and weekday, with hyphens or without; any one character may separate it from the time
of day, which is written with colons or without; a sign starts the offset.
-/

namespace ClusterBackup

open Text

inductive TimestampError where
  /-- The text has not the shape of a timestamp, or names a week or weekday that does not
  exist. -/
  | shape
  | date (e : DateError)
  | time (e : TimeError)
  /-- The offset is a day or more. -/
  | offset
deriving DecidableEq, Repr

namespace Timestamp

/-! ### Reading -/

/-- The number of characters that make up the date. After a week, digits may belong to the weekday
or to the time: with hyphens, a digit two places on decides for the time; without, the time takes
the digits in pairs. -/
def dateLength (cs : List Char) : Nat :=
  match cs.drop 4 with
  | '-' :: 'W' :: rest =>
    match rest.drop 2 with
    | '-' :: _ :: c :: _ => if c.isDigit then 8 else 10
    | '-' :: _ => 10
    | _ => 8
  | '-' :: _ => 10
  | 'W' :: rest =>
    let run := ((rest.drop 2).takeWhile Char.isDigit).length
    if run = 0 then 7 else if run = 1 then 8 else if run % 2 = 1 then 7 else 8
  | _ => 8

def readWeek? (hyphens : Bool) (cs : List Char) : Option (Nat × Nat) := do
  let (week, rest) ← readPlaces? 2 cs
  match hyphens, rest with
  | _, [] => some (week, 1)
  | true, '-' :: rest => (readPlaces? 1 rest).map fun r => (week, r.1)
  | false, rest => (readPlaces? 1 rest).map fun r => (week, r.1)
  | true, _ => none

def readMonthDay? (hyphens : Bool) (cs : List Char) : Option (Nat × Nat) := do
  let (month, rest) ← readPlaces? 2 cs
  match hyphens, rest with
  | true, '-' :: rest => day? month rest
  | true, _ => none
  | false, rest => day? month rest
where
  /-- The day that ends the text, beside its month. -/
  day? (month : Nat) (cs : List Char) : Option (Nat × Nat) :=
    match readPlaces? 2 cs with
    | some (day, []) => some (month, day)
    | _ => none

def readDate (cs : List Char) : Except TimestampError Date :=
  match readPlaces? 4 cs with
  | none => .error .shape
  | some (year, rest) =>
    let hyphens := rest.head? == some '-'
    match if hyphens then rest.drop 1 else rest with
    | 'W' :: rest =>
      match (readWeek? hyphens rest).bind fun w => Date.ofWeek? year w.1 w.2 with
      | some date => date.mapError .date
      | none => .error .shape
    | rest =>
      match readMonthDay? hyphens rest with
      | some (month, day) => (Date.ofParts year month day).mapError .date
      | none => .error .shape

/-- What is read of a time of day or an offset: its numbers, and whether a character is left that
belongs to none of them. -/
structure Reading where
  hour : Nat := 0
  minute : Nat := 0
  second : Nat := 0
  microsecond : Nat := 0
  leftover : Bool := false

/-- Reads a fraction of a second: up to six digits count, and further ones are passed over. -/
def readFraction? (r : Reading) (cs : List Char) : Option Reading :=
  let front := cs.take 6
  if front.all Char.isDigit then
    some { r with
      microsecond := decimalValue front * tenTo (6 - front.length)
      leftover := !(cs.drop 6).all Char.isDigit }
  else none

/-- Reads the numbers that are left of a time of day: at most `fields` more pairs of digits, each
stored by its number, then a fraction. A decimal mark starts the fraction after any pair. The
first pair settles whether colons are used. A single basic character may be left at the end. -/
def readFields? : (fields : Nat) → (colons : Option Bool) → Reading → List Char → Option Reading
  | 0, _, r, cs => readFraction? r cs
  | fields + 1, colons, r, cs => do
    let (n, rest) ← readPlaces? 2 cs
    let r : Reading := match fields with
      | 2 => { r with hour := n }
      | 1 => { r with minute := n }
      | _ => { r with second := n }
    match rest with
    | [] => some r
    | [c] => if c.toNat < 128 then some { r with leftover := true } else none
    | c :: more =>
      let colons := colons.getD (c == ':')
      if colons && c == ':' then readFields? fields (some colons) r more
      else if c == '.' || c == ',' then readFraction? r more
      else if colons then none
      else readFields? fields (some colons) r rest

def readClock? (cs : List Char) : Option Reading := readFields? 3 none {} cs

def isSign (c : Char) : Bool := c == '+' || c == '-'

/-- Reads an offset. One of no whole second is that of UTC. -/
def readOffset (cs : List Char) : Except TimestampError (Option Offset) :=
  match cs with
  | [] => .ok none
  | sign :: cs =>
    match readClock? cs with
    | none => .error .shape
    | some r =>
      if r.leftover then .error .shape
      else
        let seconds := (r.hour * 60 + r.minute) * 60 + r.second
        let micros : Int := if seconds = 0 then 0 else seconds * 1000000 + r.microsecond
        match Offset.ofMicros? (if sign == '-' then -micros else micros) with
        | some offset => .ok (some offset)
        | none => .error .offset

/-- Reads the time of day and the offset that follow the date. A character left over between the
two is passed over. -/
def readTime (cs : List Char) : Except TimestampError (Reading × Option Offset) :=
  match readClock? (cs.takeWhile (!isSign ·)) with
  | none => .error .shape
  | some r =>
    let zone := cs.dropWhile (!isSign ·)
    if zone.isEmpty && r.leftover then .error .shape
    else (readOffset zone).map fun offset => (r, offset)

def read (cs : List Char) : Except TimestampError Timestamp :=
  let length := dateLength cs
  match cs.drop length with
  | [] => (readDate cs).map fun date => ⟨date, .midnight, none⟩
  | _ :: rest => do
    -- the shape of the time is looked at before the range of the date
    let date := readDate (cs.take length)
    if let .error .shape := date then throw .shape
    let (r, offset) ← readTime rest
    let date ← date
    let time ← (TimeOfDay.ofParts r.hour r.minute r.second r.microsecond).mapError .time
    return ⟨date, time, offset⟩

/-! ### Writing -/

def dateText (d : Date) : List Char :=
  inPlaces 10 4 d.year ++ '-' :: inPlaces 10 2 d.month ++ '-' :: inPlaces 10 2 d.day

def clockText (hour minute second : Nat) : List Char :=
  inPlaces 10 2 hour ++ ':' :: inPlaces 10 2 minute ++ ':' :: inPlaces 10 2 second

def fractionText (microsecond : Nat) : List Char :=
  if microsecond = 0 then [] else '.' :: inPlaces 10 6 microsecond

/-- An offset; its seconds and their fraction are left out when they are zero. -/
def offsetText (o : Offset) : List Char :=
  let n := o.micros.natAbs
  let hour := n / 3600000000
  let minute := n / 60000000 % 60
  let second := n / 1000000 % 60
  let microsecond := n % 1000000
  (if o.micros < 0 then '-' else '+') ::
    if second = 0 ∧ microsecond = 0 then
      inPlaces 10 2 hour ++ ':' :: inPlaces 10 2 minute
    else clockText hour minute second ++ fractionText microsecond

def isoText (t : Timestamp) : String :=
  String.ofList (dateText t.date ++ 'T' :: clockText t.time.hour t.time.minute t.time.second ++
    fractionText t.time.microsecond ++ (t.offset.map offsetText).getD [])

def yearText (year : Nat) : List Char := (inPlaces 10 4 year).dropWhile (· == '0')

def zuluText (t : Timestamp) : String :=
  String.ofList (yearText t.date.year ++ '-' :: inPlaces 10 2 t.date.month ++
    '-' :: inPlaces 10 2 t.date.day ++
    'T' :: clockText t.time.hour t.time.minute t.time.second ++ ['Z'])

/-- The instant in UTC to the second, if its date is one of the calendar. -/
def utcText? (t : Timestamp) : Option String := t.toUtc?.map zuluText

/-- The wall clock to the second as it appears in the names of backups, the day before the
month. -/
def stampText (t : Timestamp) : String :=
  String.ofList (yearText t.date.year ++ '-' :: inPlaces 10 2 t.date.day ++
    '-' :: inPlaces 10 2 t.date.month ++
    '-' :: clockText t.time.hour t.time.minute t.time.second)

end Timestamp

end ClusterBackup
