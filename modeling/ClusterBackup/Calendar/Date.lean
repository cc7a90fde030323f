/-!
# Dates

Dates of the Gregorian calendar in the years 1 to 9999, and their day numbers, the first of
January of the year 1 being day 1.
-/

namespace ClusterBackup

namespace Calendar

def isLeap (year : Nat) : Bool :=
  year % 4 == 0 && (year % 100 != 0 || year % 400 == 0)

def monthLengths (year : Nat) : List Nat :=
  [31, if isLeap year then 29 else 28, 31, 30, 31, 30, 31, 31, 30, 31, 30, 31]

def daysInMonth (year month : Nat) : Nat := (monthLengths year).getD (month - 1) 0

def daysBeforeMonth (year month : Nat) : Nat :=
  ((monthLengths year).take (month - 1)).foldr (· + ·) 0

def daysBeforeYear (year : Nat) : Nat :=
  (year - 1) * 365 + (year - 1) / 4 - (year - 1) / 100 + (year - 1) / 400

/-- The year that a day number lies in. Four hundred years have 146097 days, which gives the year
up to one. -/
def yearOfDay (n : Nat) : Nat :=
  let guess := (n - 1) * 400 / 146097 + 1
  if n ≤ daysBeforeYear guess then guess - 1
  else if daysBeforeYear (guess + 1) < n then guess + 1
  else guess

/-- The month that a day of the year lies in and the day of that month, from the lengths of the
months left and the number of the first of them. -/
def monthAndDay : List Nat → (month : Nat) → (day : Nat) → Nat × Nat
  | [], month, day => (month, day)
  | length :: lengths, month, day =>
    if day ≤ length then (month, day) else monthAndDay lengths (month + 1) (day - length)

end Calendar

open Calendar

inductive DateError where
  | year (given : Nat)
  | month
  | day
deriving DecidableEq, Repr

def DateError.message : DateError → String
  | year given => "year " ++ toString given ++ " is out of range"
  | month => "month must be in 1..12"
  | day => "day is out of range for month"

@[ext] structure Date where
  year : Nat
  month : Nat
  day : Nat
  year_pos : 1 ≤ year
  year_le : year ≤ 9999
  month_pos : 1 ≤ month
  month_le : month ≤ 12
  day_pos : 1 ≤ day
  day_le : day ≤ daysInMonth year month
deriving DecidableEq, Repr

namespace Date

/-- The date of the given numbers. The year is checked first, then the month, then the day. -/
def ofParts (year month day : Nat) : Except DateError Date :=
  if hy : 1 ≤ year ∧ year ≤ 9999 then
    if hm : 1 ≤ month ∧ month ≤ 12 then
      if hd : 1 ≤ day ∧ day ≤ daysInMonth year month then
        .ok ⟨year, month, day, hy.1, hy.2, hm.1, hm.2, hd.1, hd.2⟩
      else .error .day
    else .error .month
  else .error (.year year)

theorem ofParts_self (d : Date) : ofParts d.year d.month d.day = .ok d := by
  simp [ofParts, d.year_pos, d.year_le, d.month_pos, d.month_le, d.day_pos, d.day_le]

def dayNumber (d : Date) : Nat :=
  daysBeforeYear d.year + daysBeforeMonth d.year d.month + d.day

def ofDayNumber (n : Nat) : Except DateError Date :=
  let year := yearOfDay n
  let (month, day) := monthAndDay (monthLengths year) 1 (n - daysBeforeYear year)
  ofParts year month day

example : (ofDayNumber 738945).map (fun d => (d.year, d.month, d.day)) = .ok (2024, 2, 29) := by
  rfl

/-- The day number of the Monday that the first week of a year starts on, the week that holds
the year's first Thursday. Day 1 is a Monday. -/
def firstMonday (year : Nat) : Nat :=
  let first := daysBeforeYear year + 1
  let weekday := (first + 6) % 7
  if weekday ≤ 3 then first - weekday else first + 7 - weekday

/-- The number of weeks of a year. The year 0, which has no dates, counts 52. -/
def weeksInYear (year : Nat) : Nat :=
  if year = 0 then 52 else (firstMonday (year + 1) - firstMonday year) / 7

/-- The date of a weekday (Monday being 1) of a week, where the year has such a week. The weeks of
the year 0 lie before any month, and the last week of the year 9999 may end in the next year. -/
def ofWeek? (year week weekday : Nat) : Option (Except DateError Date) :=
  if 1 ≤ week ∧ week ≤ weeksInYear year ∧ 1 ≤ weekday ∧ weekday ≤ 7 then
    some (if year = 0 then .error .month
      else ofDayNumber (firstMonday year + 7 * (week - 1) + (weekday - 1)))
  else none

end Date

end ClusterBackup
