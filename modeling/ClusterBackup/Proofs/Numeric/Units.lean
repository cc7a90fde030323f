import ClusterBackup.Proofs.Numeric.Rounding
import Mathlib.Order.Lattice
/-!
# Numbers in units of the least positive one

A finite number of the format is a natural number of units of `2 ^ (-1074)`, with a sign.
`isRounded_ofScaled` says what a sum or a product is in these units: the exact result, rounded by
`nearest`, or an infinity where that is out of range.
-/

namespace ClusterBackup

/-! ## Powers -/

theorem twoTo_eq_pow (e : Int) : twoTo e = 2 ^ e.toNat := rfl

theorem log2_mul_two_pow {n : Nat} (hn : n ≠ 0) (k : Nat) : (n * 2 ^ k).log2 = n.log2 + k := by
  rw [Nat.log2_eq_iff (Nat.mul_ne_zero hn (Nat.two_pow_pos k).ne')]
  constructor
  · rw [Nat.pow_add]
    exact Nat.mul_le_mul_right _ (Nat.log2_self_le hn)
  · rw [Nat.add_right_comm, Nat.pow_add]
    exact Nat.mul_lt_mul_of_pos_right Nat.lt_log2_self (Nat.two_pow_pos k)

namespace Binary64

/-! ## Units -/

/-- A mantissa and an exponent of the format. -/
structure Fits (m : Nat) (e : Int) : Prop where
  mantissa : m < 2 ^ 53
  least : -1074 ≤ e
  most : e ≤ 971

/-- How many units `m * 2 ^ e` is, for an exponent of the format. -/
def units (m : Nat) (e : Int) : Nat := m * 2 ^ (e + 1074).toNat

/-- The number of units from which on there are no finite numbers. -/
@[irreducible] def range : Nat := units (2 ^ 53) 971

variable {m n : Nat} {e f : Int}

theorem units_eq_zero : units m e = 0 ↔ m = 0 := by
  simp [units]

theorem units_mono (hm : m ≤ n) (he : e ≤ f) : units m e ≤ units n f :=
  Nat.mul_le_mul hm (Nat.pow_le_pow_right Nat.two_pos (by omega))

theorem units_two_mul (m : Nat) (he : -1074 ≤ e) : units (2 * m) e = units m (e + 1) := by
  have hexp : (e + 1 + 1074).toNat = (e + 1074).toNat + 1 := by omega
  unfold units
  rw [hexp, Nat.pow_succ, Nat.mul_comm 2 m, Nat.mul_assoc, Nat.mul_comm 2]

theorem range_eq : range = units (2 ^ 52) (971 + 1) := by
  have hpow : 2 ^ 53 = 2 * 2 ^ 52 := by decide
  unfold range
  rw [hpow, units_two_mul _ (by decide)]

theorem range_pos : 0 < range := by
  unfold range
  exact Nat.mul_pos (by decide) (Nat.two_pow_pos _)

theorem Fits.units_lt (h : Fits m e) : units m e < range := by
  have hexp : units (2 ^ 53) e ≤ range := by
    unfold range
    exact units_mono le_rfl h.most
  exact (Nat.mul_lt_mul_of_pos_right h.mantissa (Nat.two_pow_pos _)).trans_le hexp

theorem Fits.representable (h : Fits m e) : Representable (units m e) :=
  ⟨m, (e + 1074).toNat, h.mantissa, rfl⟩

theorem representable_range : Representable range := by
  rw [range_eq]
  exact ⟨2 ^ 52, _, by decide, rfl⟩

theorem mul_twoTo_units (he : -1074 ≤ e) (hf : -1074 ≤ f) :
    m * twoTo (e - f) * 2 ^ (min e f + 1074).toNat = units m e := by
  unfold units
  rw [twoTo_eq_pow, Nat.mul_assoc, ← Nat.pow_add]
  congr 2
  omega

/-! ## Rounding to the format -/

/-- The number of the format that a number of units is rounded to. -/
inductive IsRounded (negative : Bool) (n : Nat) : Binary64 → Prop where
  | finite {m : Nat} {e : Int} (hfits : Fits m e) (h : units m e = nearest n) :
    IsRounded negative n (.finite negative m e)
  | infinite (h : range ≤ nearest n) : IsRounded negative n (.infinite negative)

/-- The unit of the quotient of a mantissa by a power of two is that of the mantissa, scaled. -/
theorem unitExponent_eq (hn : n ≠ 0) (e : Int) :
    unitExponent (n * twoTo e) (twoTo (-e)) = n.log2 + e - 52 := by
  have hnum : (n * twoTo e).log2 = n.log2 + e.toNat := log2_mul_two_pow hn _
  have hden : (twoTo (-e)).log2 = (-e).toNat := Nat.log2_two_pow
  have hexp : ((n * twoTo e).log2 : Int) - (twoTo (-e)).log2 - 52 = n.log2 + e - 52 := by
    rw [hnum, hden]
    omega
  have hle : twoTo (-e) * twoTo (n.log2 + e - 52) * twoTo 52 ≤
      n * twoTo e * twoTo (-(n.log2 + e - 52)) := by
    calc twoTo (-e) * twoTo (n.log2 + e - 52) * twoTo 52
        = 2 ^ n.log2 * twoTo e * twoTo (-(n.log2 + e - 52)) := by
          simp only [twoTo_eq_pow, ← Nat.pow_add]
          congr 1
          omega
      _ ≤ n * twoTo e * twoTo (-(n.log2 + e - 52)) :=
          Nat.mul_le_mul_right _ (Nat.mul_le_mul_right _ (Nat.log2_self_le hn))
  unfold unitExponent
  rw [hexp]
  exact if_neg (Nat.not_lt.2 hle)

theorem roundDiv_eq (hn : n ≠ 0) (he : -1074 ≤ e) (hf : f = max (n.log2 + e - 52) (-1074)) :
    spacing (units n e) = 2 ^ (f + 1074).toNat ∧
      roundDiv (n * twoTo e * twoTo (-f)) (twoTo (-e) * twoTo f) =
        roundDiv (units n e) (spacing (units n e)) := by
  have hspacing : spacing (units n e) = 2 ^ (f + 1074).toNat := by
    unfold spacing units
    rw [log2_mul_two_pow hn]
    congr 1
    omega
  refine ⟨hspacing, roundDiv_eq_of_mul_eq ?_ (spacing_pos _) ?_⟩
  · exact Nat.mul_pos (twoTo_pos _) (twoTo_pos _)
  · rw [hspacing, units]
    simp only [twoTo_eq_pow, Nat.mul_assoc, ← Nat.pow_add]
    congr 2
    omega

theorem isRounded_ofRatio (negative : Bool) (n : Nat) (he : -1074 ≤ e) :
    IsRounded negative (units n e) (ofRatio negative (n * twoTo e) (twoTo (-e))) := by
  unfold ofRatio
  by_cases hn : n = 0
  · rw [hn, if_pos (Nat.zero_mul _)]
    have hzero : units 0 e = 0 := units_eq_zero.2 rfl
    rw [hzero]
    exact .finite ⟨by decide, by decide, by decide⟩ (by rw [nearest_zero, units_eq_zero])
  · rw [if_neg (Nat.mul_ne_zero hn (twoTo_pos e).ne'), unitExponent_eq hn]
    generalize hf : max (n.log2 + e - 52) (-1074) = f
    obtain ⟨hspacing, hmantissa⟩ := roundDiv_eq hn he hf.symm
    have hleast : -1074 ≤ f := by omega
    have hle := roundDiv_spacing_le (units n e)
    have hlower : -1074 < f → 2 ^ 52 ≤ roundDiv (units n e) (spacing (units n e)) := by
      intro hlt
      apply le_roundDiv_spacing
      have hlog : 52 ≤ (units n e).log2 := by
        rw [units, log2_mul_two_pow hn]
        omega
      exact (Nat.le_log2 (by rwa [Ne, units_eq_zero])).1 hlog
    dsimp only
    rw [hmantissa]
    generalize hr : roundDiv (units n e) (spacing (units n e)) = r at hle hlower
    have hnearest : nearest (units n e) = units r f := by
      rw [nearest, hr, hspacing, units, Nat.mul_comm]
    split_ifs with hlt hmost hmost
    · exact .finite ⟨hlt, hleast, hmost⟩ hnearest.symm
    · refine .infinite ?_
      rw [hnearest, range_eq]
      exact units_mono (hlower (by omega)) (by omega)
    · have hfull : r = 2 ^ 53 := hle.antisymm (Nat.not_lt.1 hlt)
      refine .finite ⟨by decide, by omega, by omega⟩ ?_
      rw [hnearest, hfull]
      exact (units_two_mul (2 ^ 52) hleast).symm
    · have hfull : r = 2 ^ 53 := hle.antisymm (Nat.not_lt.1 hlt)
      refine .infinite ?_
      rw [hnearest, hfull]
      unfold range
      exact units_mono le_rfl (by omega)

/-- A number of units is rounded to the nearest number of the format. An exact zero takes the sign
given. -/
theorem isRounded_ofScaled (z : Bool) (n : Int) (he : -1074 ≤ e) :
    IsRounded (if n = 0 then z else decide (n < 0)) (units n.natAbs e) (ofScaled z n e) :=
  isRounded_ofRatio _ _ he

end Binary64

end ClusterBackup
