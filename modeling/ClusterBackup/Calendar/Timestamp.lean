import ClusterBackup.Calendar.Date
/-!
# Timestamps

A date and a time of day to the microsecond, with or without an offset from UTC. One without is
taken for a time in UTC where an instant is wanted.
-/

namespace ClusterBackup

inductive TimeError where
  | hour
  | minute
  | second
deriving DecidableEq, Repr

def TimeError.message : TimeError → String
  | hour => "hour must be in 0..23"
  | minute => "minute must be in 0..59"
  | second => "second must be in 0..59"

@[ext] structure TimeOfDay where
  hour : Nat
  minute : Nat
  second : Nat
  microsecond : Nat
  hour_lt : hour < 24
  minute_lt : minute < 60
  second_lt : second < 60
  microsecond_lt : microsecond < 1000000
deriving DecidableEq, Repr

namespace TimeOfDay

def midnight : TimeOfDay := ⟨0, 0, 0, 0, by decide, by decide, by decide, by decide⟩

/-- The time of the given numbers; the microseconds are taken within their second. -/
def ofParts (hour minute second microsecond : Nat) : Except TimeError TimeOfDay :=
  if hh : hour < 24 then
    if hm : minute < 60 then
      if hs : second < 60 then
        .ok ⟨hour, minute, second, microsecond % 1000000, hh, hm, hs, Nat.mod_lt _ (by decide)⟩
      else .error .second
    else .error .minute
  else .error .hour

def micros (t : TimeOfDay) : Nat :=
  ((t.hour * 60 + t.minute) * 60 + t.second) * 1000000 + t.microsecond

/-- The time a number of microseconds after midnight, whole days left out. -/
def ofMicros (n : Nat) : TimeOfDay where
  hour := n / 3600000000 % 24
  minute := n / 60000000 % 60
  second := n / 1000000 % 60
  microsecond := n % 1000000
  hour_lt := Nat.mod_lt _ (by decide)
  minute_lt := Nat.mod_lt _ (by decide)
  second_lt := Nat.mod_lt _ (by decide)
  microsecond_lt := Nat.mod_lt _ (by decide)

theorem ofMicros_micros (t : TimeOfDay) : ofMicros t.micros = t := by
  have := t.hour_lt; have := t.minute_lt; have := t.second_lt; have := t.microsecond_lt
  ext <;> simp only [ofMicros, micros] <;> omega

end TimeOfDay

def dayMicros : Nat := 86400000000

/-- An offset from UTC of less than a day, in microseconds; east of Greenwich is positive. -/
@[ext] structure Offset where
  micros : Int
  inDay : micros.natAbs < dayMicros
deriving DecidableEq, Repr

namespace Offset

def utc : Offset := ⟨0, by decide⟩

def ofMicros? (n : Int) : Option Offset :=
  if h : n.natAbs < dayMicros then some ⟨n, h⟩ else none

end Offset

/-- A date and time of day, with its offset from UTC where one is known. -/
@[ext] structure Timestamp where
  date : Date
  time : TimeOfDay
  offset : Option Offset
deriving DecidableEq, Repr

namespace Timestamp

/-- The microseconds on the wall clock since the start of day 0. -/
def wallMicros (t : Timestamp) : Nat := t.date.dayNumber * dayMicros + t.time.micros

/-- The microseconds from the start of day 0 of UTC to the instant. -/
def instant (t : Timestamp) : Int := t.wallMicros - (t.offset.map Offset.micros).getD 0

def ofInstant? (n : Int) : Option Timestamp :=
  if n < 0 then none
  else
    match Date.ofDayNumber (n.toNat / dayMicros) with
    | .ok date => some ⟨date, .ofMicros (n.toNat % dayMicros), some .utc⟩
    | .error _ => none

/-- The same instant in UTC. A timestamp without an offset is left alone; there is none if the
date falls out of the calendar. -/
def toUtc? (t : Timestamp) : Option Timestamp :=
  match t.offset with
  | none => some t
  | some _ => ofInstant? t.instant

end Timestamp

end ClusterBackup
