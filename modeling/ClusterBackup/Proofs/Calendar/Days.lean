import ClusterBackup.Calendar.Date
import Mathlib.Algebra.BigOperators.Group.List.Basic
import Mathlib.Algebra.GroupWithZero.Nat
import Mathlib.Algebra.Order.BigOperators.Group.List
/-!
# Day numbers

The days of a year follow those of the year before, and the days of a month those of the month
before. So the day numbers of the calendar run from 1 to the last day of the year 9999 without a
gap (`exists_ofDayNumber`), and a later day has a later date (`before_of_dayNumber_lt`).
-/

namespace ClusterBackup

namespace Calendar

/-! ## Years -/

def daysInYear (year : Nat) : Nat := if isLeap year then 366 else 365

theorem isLeap_iff (year : Nat) :
    isLeap year = true ↔ 4 ∣ year ∧ (¬ 100 ∣ year ∨ 400 ∣ year) := by
  simp [isLeap, Nat.dvd_iff_mod_eq_zero]

theorem daysBeforeYear_succ {year : Nat} (h : 1 ≤ year) :
    daysBeforeYear (year + 1) = daysBeforeYear year + daysInYear year := by
  obtain ⟨y, rfl⟩ := Nat.exists_eq_add_of_le' h
  have hle : y / 100 ≤ y / 4 := Nat.div_le_div_left (by decide) (by decide)
  unfold daysBeforeYear daysInYear
  -- Each quotient goes up by one exactly in the years that are divisible.
  simp only [Nat.add_sub_cancel, Nat.succ_div, isLeap_iff]
  generalize y / 4 = fours, y / 100 = centuries, y / 400 = cycles at *
  by_cases h400 : 400 ∣ y + 1
  · have h100 : 100 ∣ y + 1 := Nat.dvd_trans (by decide) h400
    have h4 : 4 ∣ y + 1 := Nat.dvd_trans (by decide) h100
    simp only [h4, h100, h400, if_true, true_and, or_true]
    omega
  · by_cases h100 : 100 ∣ y + 1
    · have h4 : 4 ∣ y + 1 := Nat.dvd_trans (by decide) h100
      simp only [h4, h100, h400, not_true, or_false, and_false, if_true, if_false]
      omega
    · simp only [h100, h400, not_false_iff, true_or, and_true, if_false]
      split <;> omega

/-- The days before a year are those before any year that it follows, and that year. -/
theorem daysBeforeYear_add_le {year later : Nat} (h : 1 ≤ year) (hlt : year < later) :
    daysBeforeYear year + daysInYear year ≤ daysBeforeYear later := by
  induction later, hlt using Nat.le_induction with
  | base => exact (daysBeforeYear_succ h).ge
  | succ later hle ih =>
    rw [daysBeforeYear_succ (by omega)]
    omega

theorem daysBeforeYear_mono {year later : Nat} (h : 1 ≤ year) (hle : year ≤ later) :
    daysBeforeYear year ≤ daysBeforeYear later := by
  rcases Nat.lt_or_eq_of_le hle with hlt | rfl
  · exact Nat.le_of_add_right_le (daysBeforeYear_add_le h hlt)
  · exact Nat.le_refl _

theorem yearOfDay_spec {n : Nat} (h : 1 ≤ n) :
    1 ≤ yearOfDay n ∧ daysBeforeYear (yearOfDay n) < n ∧
      n ≤ daysBeforeYear (yearOfDay n + 1) := by
  unfold yearOfDay
  dsimp only
  split_ifs with hbefore hafter
  all_goals
    unfold daysBeforeYear at *
    omega

/-! ## Months -/

theorem length_monthLengths (year : Nat) : (monthLengths year).length = 12 := rfl

theorem sum_monthLengths (year : Nat) : (monthLengths year).sum = daysInYear year := by
  unfold monthLengths daysInYear
  split <;> rfl

/-- A day of some months in a row lies in one of them. -/
theorem monthAndDay_spec (lengths : List Nat) (month : Nat) {day : Nat} (h : 1 ≤ day)
    (hle : day ≤ lengths.sum) :
    ∃ i < lengths.length, ∃ d, monthAndDay lengths month day = (month + i, d) ∧ 1 ≤ d ∧
      d ≤ lengths.getD i 0 ∧ (lengths.take i).sum + d = day := by
  induction lengths generalizing month day with
  | nil =>
    rw [List.sum_nil] at hle
    omega
  | cons length lengths ih =>
    rw [monthAndDay]
    by_cases hday : day ≤ length
    · rw [if_pos hday]
      exact ⟨0, by simp, day, rfl, h, hday, by simp⟩
    · rw [if_neg hday]
      rw [List.sum_cons] at hle
      obtain ⟨i, hi, d, heq, hd, hlength, hsum⟩ :=
        ih (month + 1) (show 1 ≤ day - length by omega) (by omega)
      refine ⟨i + 1, by simpa using hi, d, ?_, hd, hlength, ?_⟩
      · rw [heq, Nat.add_right_comm, Nat.add_assoc]
      · rw [List.take_succ_cons, List.sum_cons]
        omega

theorem daysBeforeMonth_eq (year month : Nat) :
    daysBeforeMonth year month = ((monthLengths year).take (month - 1)).sum := rfl

theorem sum_take_add_le (lengths : List Nat) {i j : Nat} (h : i < j) :
    (lengths.take i).sum + lengths.getD i 0 ≤ (lengths.take j).sum := by
  induction lengths generalizing i j with
  | nil => simp
  | cons length lengths ih =>
    obtain ⟨j, rfl⟩ := Nat.exists_eq_add_of_lt h
    cases i with
    | zero => simp
    | succ i =>
      have hrest := ih (show i < i + j + 1 by omega)
      rw [show i + 1 + j + 1 = i + j + 1 + 1 by omega]
      simp only [List.take_succ_cons, List.sum_cons, List.getD_cons_succ]
      omega

theorem daysBeforeMonth_add_le (year : Nat) {month later : Nat} (h : 1 ≤ month)
    (hlt : month < later) :
    daysBeforeMonth year month + daysInMonth year month ≤ daysBeforeMonth year later :=
  sum_take_add_le _ (by omega)

end Calendar

open Calendar

namespace Date

/-! ## Dates -/

theorem day_le_daysInYear (d : Date) :
    daysBeforeMonth d.year d.month + d.day ≤ daysInYear d.year := by
  have hle := d.month_le
  have hpos := d.month_pos
  have hmonth := sum_take_add_le (monthLengths d.year) (show d.month - 1 < 12 by omega)
  rw [List.take_of_length_le (length_monthLengths d.year).le, sum_monthLengths] at hmonth
  have hday := d.day_le
  unfold daysInMonth at hday
  rw [daysBeforeMonth_eq]
  omega

theorem exists_ofDayNumber {n : Nat} (h : 1 ≤ n) (hle : n ≤ daysBeforeYear 10000) :
    ∃ d, ofDayNumber n = .ok d ∧ d.dayNumber = n := by
  obtain ⟨hpos, hafter, hbefore⟩ := yearOfDay_spec h
  have hyear : yearOfDay n ≤ 9999 := by
    by_contra hlate
    have := daysBeforeYear_mono (by decide) (show 10000 ≤ yearOfDay n by omega)
    omega
  rw [daysBeforeYear_succ hpos] at hbefore
  obtain ⟨i, hi, day, hmonth, hday, hlength, hsum⟩ :=
    monthAndDay_spec (monthLengths (yearOfDay n)) 1
      (show 1 ≤ n - daysBeforeYear (yearOfDay n) by omega) (by rw [sum_monthLengths]; omega)
  rw [length_monthLengths] at hi
  rw [Nat.add_comm] at hmonth
  let d : Date := ⟨yearOfDay n, i + 1, day, hpos, hyear, by omega, by omega, hday, hlength⟩
  refine ⟨d, ?_, ?_⟩
  · unfold ofDayNumber
    dsimp only
    rw [hmonth]
    exact ofParts_self d
  · show daysBeforeYear (yearOfDay n) + ((monthLengths (yearOfDay n)).take i).sum + day = n
    omega

def Before (d e : Date) : Prop :=
  d.year < e.year ∨ d.year = e.year ∧
    (d.month < e.month ∨ d.month = e.month ∧ d.day < e.day)

theorem dayNumber_lt_of_before {d e : Date} (h : d.Before e) : d.dayNumber < e.dayNumber := by
  have hd := d.day_le_daysInYear
  have he := e.day_pos
  unfold dayNumber
  rcases h with hyear | ⟨hyear, hmonth | ⟨hmonth, hday⟩⟩
  · have := daysBeforeYear_add_le d.year_pos hyear
    omega
  · have := daysBeforeMonth_add_le e.year d.month_pos hmonth
    have hday := d.day_le
    rw [hyear] at hday ⊢
    omega
  · rw [hyear, hmonth]
    omega

theorem before_or_eq (d e : Date) : d.Before e ∨ d = e ∨ e.Before d := by
  unfold Before
  rw [Date.ext_iff]
  omega

theorem before_of_dayNumber_lt {d e : Date} (h : d.dayNumber < e.dayNumber) : d.Before e := by
  rcases d.before_or_eq e with hbefore | rfl | hafter
  · exact hbefore
  · omega
  · have := dayNumber_lt_of_before hafter
    omega

theorem dayNumber_inj {d e : Date} : d.dayNumber = e.dayNumber ↔ d = e := by
  constructor
  · intro h
    rcases d.before_or_eq e with hbefore | heq | hafter
    · have := dayNumber_lt_of_before hbefore
      omega
    · exact heq
    · have := dayNumber_lt_of_before hafter
      omega
  · rintro rfl
    rfl

end Date

end ClusterBackup
