import ClusterBackup.Numeric.Binary64
import ClusterBackup.Text.Blank
import ClusterBackup.Text.DecimalDigit
import ClusterBackup.Text.Digits
import ClusterBackup.Text.Quoted
/-!
# Numerals

Reading integers and binary64 numbers from text. Digits of any script count, blanks at the ends
are skipped, and a single underscore may stand between two digits. Integers are read and written
with a limited number of digits.
-/

namespace ClusterBackup

inductive NumeralError where
  | notReal (text : String)
  | notInteger (text : String)
  | tooManyDigits (count : Nat)
  | tooLongToWrite
deriving DecidableEq, Repr

namespace Numeral

def digitLimit : Nat := 4300

def beyondLimit : String :=
  "Exceeds the limit (" ++ toString digitLimit ++ " digits) for integer string conversion"

def limitHint : String := "; use sys.set_int_max_str_digits() to increase the limit"

def shownLimit : Nat := 200

end Numeral

def NumeralError.message : NumeralError → String
  | notReal text => "could not convert string to float: " ++ Text.quoted text
  | notInteger text => "invalid literal for int() with base 10: " ++
      String.ofList ((Text.quoted text).toList.take Numeral.shownLimit)
  | tooManyDigits count =>
    Numeral.beyondLimit ++ ": value has " ++ toString count ++ " digits" ++ Numeral.limitHint
  | tooLongToWrite => Numeral.beyondLimit ++ Numeral.limitHint

namespace Numeral

/-- A character with a digit of any script replaced by the basic one, and a blank outside the
basic range by a space. What is left outside that range belongs to no numeral. -/
def basicChar (c : Char) : Char :=
  if c.toNat < 127 then c
  else if Text.isBlank c then ' '
  else match Text.digitValue? c with
    | some d => Char.ofNat (48 + d)
    | none => '?'

def isSpace (c : Char) : Bool := c == ' ' || (9 ≤ c.toNat && c.toNat ≤ 13)

def bare (text : String) : List Char :=
  let cs := (text.toList.map basicChar).dropWhile isSpace
  (cs.reverse.dropWhile isSpace).reverse

def splitSign : List Char → Bool × List Char
  | '+' :: cs => (false, cs)
  | '-' :: cs => (true, cs)
  | cs => (false, cs)

/-- Whether every underscore stands between two digits; `previous` is the character before. -/
def underscoresFit (previous : Char) : List Char → Bool
  | [] => previous != '_'
  | c :: cs =>
    (c != '_' || previous.isDigit) && (previous != '_' || c.isDigit) && underscoresFit c cs

/-- Reads an integer. Misplaced underscores are found first, then too many digits, then characters
that do not belong. -/
def readInt (text : String) : Except NumeralError Int :=
  let (negative, cs) := splitSign (bare text)
  let run := cs.takeWhile fun c => c.isDigit || c == '_'
  let digits := run.filter (· != '_')
  if digits.isEmpty || !underscoresFit ' ' run then .error (.notInteger text)
  else if digitLimit < digits.length then .error (.tooManyDigits digits.length)
  else if run.length < cs.length then .error (.notInteger text)
  else
    let n : Int := Text.decimalValue digits
    .ok (if negative then -n else n)

/-- The text of an integer, which is not written with more digits than may be read. -/
def writeInt (n : Int) : Except NumeralError String :=
  if digitLimit < (toString n.natAbs).length then .error .tooLongToWrite else .ok (toString n)

def readExponent : List Char → Option Int
  | [] => some 0
  | c :: cs =>
    if c == 'e' || c == 'E' then
      let (negative, ds) := splitSign cs
      if !ds.isEmpty && ds.all Char.isDigit then
        some (if negative then -(Text.decimalValue ds : Int) else Text.decimalValue ds)
      else none
    else none

/-- Reads an unsigned decimal with at least one digit, as a number of units and the exponent of
the unit. -/
def readDecimal (cs : List Char) : Option (Nat × Int) :=
  let whole := cs.takeWhile Char.isDigit
  let rest := cs.dropWhile Char.isDigit
  let (places, rest) := match rest with
    | '.' :: ds => (ds.takeWhile Char.isDigit, ds.dropWhile Char.isDigit)
    | _ => ([], rest)
  if whole.isEmpty && places.isEmpty then none
  else (readExponent rest).map fun e => (Text.decimalValue (whole ++ places), e - places.length)

/-- Reads a binary64 number: a decimal, or infinity or NaN by name in any case. -/
def readReal (text : String) : Except NumeralError Binary64 :=
  let cs := bare text
  if cs.contains '_' && !underscoresFit ' ' cs then .error (.notReal text)
  else
    let (negative, cs) := splitSign (cs.filter (· != '_'))
    match readDecimal cs with
    | some (m, e) => .ok (.ofDecimal negative m e)
    | none =>
      let name := String.ofList (cs.map Char.toLower)
      if name = "inf" || name = "infinity" then .ok (.infinite negative)
      else if name = "nan" then .ok .nan
      else .error (.notReal text)

end Numeral

end ClusterBackup
