import ClusterBackup.Calendar.IsoText
import Mathlib.Data.List.Basic
import Mathlib.Tactic.IntervalCases
/-!
# What a stamp tells

The stamp in the name of a backup is read from its end: the clock, the month and the day have their
set places, and before them stand digits up to a hyphen. So it tells the wall clock to the second,
whatever stands before it (`append_stamp_inj`), and nothing else: not the fraction, not the offset.
-/

namespace ClusterBackup

/-- What follows the last of some separators can be told from what comes before it. -/
theorem append_cons_inj_of_last {α : Type} {a : α} {front front' back back' : List α}
    (hback : a ∉ back) (hback' : a ∉ back') :
    front ++ a :: back = front' ++ a :: back' ↔ front = front' ∧ back = back' := by
  constructor
  · intro h
    rcases List.append_eq_append_iff.1 h with ⟨middle, rfl, hrest⟩ | ⟨middle, rfl, hrest⟩ <;>
      cases middle <;> simp_all
  · rintro ⟨rfl, rfl⟩
    rfl

namespace Text

/-! ## Digits -/

theorem toNat_digitChar {n : Nat} (h : n < 10) : (digitChar n).toNat = 48 + n := by
  rw [digitChar, if_pos h]
  interval_cases n <;> rfl

theorem decimalValue_concat (cs : List Char) (c : Char) :
    decimalValue (cs ++ [c]) = 10 * decimalValue cs + (c.toNat - 48) := by
  simp [decimalValue]

/-- The digits of a number stand for what is left of it in so many places. -/
theorem decimalValue_inPlaces (places n : Nat) :
    decimalValue (inPlaces 10 places n) = n % 10 ^ places := by
  induction places generalizing n with
  | zero => simp [inPlaces, decimalValue, Nat.mod_one]
  | succ places ih =>
    rw [inPlaces, decimalValue_concat, ih, toNat_digitChar (Nat.mod_lt n (by decide)),
      Nat.pow_succ, Nat.mul_comm (10 ^ places) 10, Nat.mod_mul]
    omega

theorem inPlaces_inj {places m n : Nat} (hm : m < 10 ^ places) (hn : n < 10 ^ places) :
    inPlaces 10 places m = inPlaces 10 places n ↔ m = n := by
  constructor
  · intro h
    have hvalue := congrArg decimalValue h
    rwa [decimalValue_inPlaces, decimalValue_inPlaces, Nat.mod_eq_of_lt hm,
      Nat.mod_eq_of_lt hn] at hvalue
  · rintro rfl
    rfl

theorem decimalValue_dropWhile_zero (cs : List Char) :
    decimalValue (cs.dropWhile (· == '0')) = decimalValue cs := by
  induction cs with
  | nil => rfl
  | cons c cs ih =>
    rw [List.dropWhile_cons]
    split
    · rename_i hc
      rw [ih, beq_iff_eq.1 hc]
      rfl
    · rfl

theorem not_mem_inPlaces {c : Char} (hc : c.toNat < 48) (places n : Nat) :
    c ∉ inPlaces 10 places n := by
  induction places generalizing n with
  | zero => simp [inPlaces]
  | succ places ih =>
    rw [inPlaces, List.mem_append, List.mem_singleton]
    rintro (hmem | rfl)
    · exact ih (n / 10) hmem
    · rw [toNat_digitChar (Nat.mod_lt n (by decide))] at hc
      omega

end Text

open Text

theorem Date.day_lt (d : Date) : d.day < 100 := by
  have hlength : Calendar.daysInMonth d.year d.month ≤ 31 := by
    have hmonth := And.intro d.month_pos d.month_le
    generalize d.month = month at hmonth ⊢
    obtain ⟨hpos, hle⟩ := hmonth
    interval_cases month <;> simp [Calendar.daysInMonth, Calendar.monthLengths]
    split <;> decide
  have := d.day_le
  omega

namespace Timestamp

/-! ## Parts of a stamp -/

theorem yearText_inj {d d' : Date} : yearText d.year = yearText d'.year ↔ d.year = d'.year := by
  constructor
  · intro h
    have hvalue := congrArg decimalValue h
    have := d.year_le
    have := d'.year_le
    rwa [yearText, yearText, decimalValue_dropWhile_zero, decimalValue_dropWhile_zero,
      decimalValue_inPlaces, decimalValue_inPlaces, Nat.mod_eq_of_lt (by omega),
      Nat.mod_eq_of_lt (by omega)] at hvalue
  · intro h
    rw [h]

theorem not_mem_yearText (year : Nat) : '-' ∉ yearText year := fun hmem =>
  not_mem_inPlaces (by decide) 4 year ((List.dropWhile_suffix _).subset hmem)

theorem inPlaces_two_inj {m n : Nat} (hm : m < 100) (hn : n < 100) :
    inPlaces 10 2 m = inPlaces 10 2 n ↔ m = n :=
  inPlaces_inj hm hn

theorem clockText_inj {a b : TimeOfDay} :
    clockText a.hour a.minute a.second = clockText b.hour b.minute b.second ↔
      a.hour = b.hour ∧ a.minute = b.minute ∧ a.second = b.second := by
  have ha := And.intro a.hour_lt (And.intro a.minute_lt a.second_lt)
  have hb := And.intro b.hour_lt (And.intro b.minute_lt b.second_lt)
  constructor
  · intro h
    unfold clockText at h
    obtain ⟨h, hsecond⟩ := List.append_inj' h (by simp)
    obtain ⟨hhour, hminute⟩ := List.append_inj' h (by simp)
    have hminute := (List.cons.inj hminute).2
    have hsecond := (List.cons.inj hsecond).2
    exact ⟨(inPlaces_two_inj (by omega) (by omega)).1 hhour,
      (inPlaces_two_inj (by omega) (by omega)).1 hminute,
      (inPlaces_two_inj (by omega) (by omega)).1 hsecond⟩
  · rintro ⟨hhour, hminute, hsecond⟩
    rw [hhour, hminute, hsecond]

/-! ## Stamps -/

/-- The timestamps show the same second on the wall clock. -/
structure SameSecond (t t' : Timestamp) : Prop where
  date : t.date = t'.date
  hour : t.time.hour = t'.time.hour
  minute : t.time.minute = t'.time.minute
  second : t.time.second = t'.time.second

theorem stampText_append (front : List Char) (t : Timestamp) :
    front ++ '-' :: t.stampText.toList = front ++ '-' :: yearText t.date.year ++
      '-' :: inPlaces 10 2 t.date.day ++ '-' :: inPlaces 10 2 t.date.month ++
      '-' :: clockText t.time.hour t.time.minute t.time.second := by
  simp [stampText]

/-- A stamp after a hyphen tells its second, and what comes before the hyphen. -/
theorem append_stamp_inj {front front' : List Char} {t t' : Timestamp} :
    front ++ '-' :: t.stampText.toList = front' ++ '-' :: t'.stampText.toList ↔
      front = front' ∧ t.SameSecond t' := by
  constructor
  · intro h
    have hmonth := And.intro t.date.month_le t'.date.month_le
    have hday := And.intro t.date.day_lt t'.date.day_lt
    rw [stampText_append, stampText_append] at h
    obtain ⟨h, hclock⟩ := List.append_inj' h (by simp [clockText])
    obtain ⟨h, hm⟩ := List.append_inj' h (by simp)
    obtain ⟨h, hd⟩ := List.append_inj' h (by simp)
    -- The year has no set place: it is what stands behind the last hyphen.
    obtain ⟨hfront, hy⟩ :=
      (append_cons_inj_of_last (not_mem_yearText _) (not_mem_yearText _)).1 h
    obtain ⟨hhour, hminute, hsecond⟩ := clockText_inj.1 (List.cons.inj hclock).2
    have hdate : t.date = t'.date := Date.ext (yearText_inj.1 hy)
      ((inPlaces_two_inj (by omega) (by omega)).1 (List.cons.inj hm).2)
      ((inPlaces_two_inj (by omega) (by omega)).1 (List.cons.inj hd).2)
    exact ⟨hfront, hdate, hhour, hminute, hsecond⟩
  · rintro ⟨rfl, hdate, hhour, hminute, hsecond⟩
    rw [stampText_append, stampText_append, hdate, hhour, hminute, hsecond]

end Timestamp

end ClusterBackup
