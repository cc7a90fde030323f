import ClusterBackup.Numeric.Number
import ClusterBackup.Proofs.Clock.FloatTime
import Mathlib.Data.Rat.Cast.Order
/-!
# Whole numbers of seconds

A natural number below `2 ^ 53` is a binary64 number itself, and so are the sums that stay below.
-/

namespace ClusterBackup.Binary64

variable {m n : Nat} {e : Int}

theorem fits_of_lt (h : n < 2 ^ 53) : Fits n 0 := ⟨h, by decide, by decide⟩

theorem height_natCast (h : n < 2 ^ 53) : height (n : Binary64) = units n 0 := by
  rw [(isTime_natCast n).2, nearest_of_representable (fits_of_lt h).representable,
    min_eq_left (fits_of_lt h).units_lt.le]

theorem height_natCast_add (h : m + n < 2 ^ 53) :
    height ((m : Binary64) + (n : Binary64)) = units (m + n) 0 := by
  have hsum : units m 0 + units n 0 = units (m + n) 0 := (Nat.add_mul ..).symm
  rw [((isTime_natCast m).1.add (isTime_natCast n).1).2, height_natCast (by omega),
    height_natCast (by omega), hsum, nearest_of_representable (fits_of_lt h).representable,
    min_eq_left (fits_of_lt h).units_lt.le]

/-! ## Quantities -/

theorem mul_twoTo_of_units (he : -1074 ≤ e) (h : units m e = units n 0) :
    m * twoTo e = n * twoTo (-e) := by
  unfold units at h
  generalize hk : ((0 : Int) + 1074).toNat = k at h
  have hexp : e.toNat + k = (e + 1074).toNat + (-e).toNat := by omega
  apply Nat.eq_of_mul_eq_mul_right (Nat.two_pow_pos k)
  calc m * twoTo e * 2 ^ k
      = m * 2 ^ (e + 1074).toNat * 2 ^ (-e).toNat := by
        rw [twoTo_eq_pow, Nat.mul_assoc, ← Nat.pow_add, hexp, Nat.pow_add, Nat.mul_assoc]
    _ = n * 2 ^ k * 2 ^ (-e).toNat := congrArg (· * 2 ^ (-e).toNat) h
    _ = n * twoTo (-e) * 2 ^ k := by
        rw [twoTo_eq_pow, Nat.mul_assoc, Nat.mul_assoc, Nat.mul_comm (2 ^ k)]

theorem quantity_natCast (h : n < 2 ^ 53) : (n : Binary64).quantity = .finite n := by
  have hfits := fits_of_lt h
  have hexact := nearest_of_representable hfits.representable
  have hsign : (if (n : Int) = 0 then false else decide ((n : Int) < 0)) = false := by
    split
    · rfl
    · exact decide_eq_false (by omega)
  have hr : IsRounded false (units n 0) (n : Binary64) := by
    rw [← hsign]
    exact isRounded_ofScaled false n (by decide)
  generalize (n : Binary64) = x at hr
  cases hr with
  | infinite hrange =>
    have hlt := hfits.units_lt
    omega
  | @finite m e hm hunits =>
    have hmul := mul_twoTo_of_units hm.least (hunits.trans hexact)
    have hden : ((twoTo (-e) : Nat) : Rat) ≠ 0 := Nat.cast_ne_zero.2 (twoTo_pos _).ne'
    have hnum : ((signed false m * twoTo e : Int) : Rat) = n * (twoTo (-e) : Nat) := by
      have hsigned : signed false m = m := rfl
      rw [hsigned]
      exact_mod_cast hmul
    rw [quantity, Rat.mkRat_eq_div, hnum, mul_div_cancel_right₀ _ hden]

end ClusterBackup.Binary64
