import ClusterBackup.Proofs.Clock.Measured
import ClusterBackup.Proofs.Numeric.Units
import Mathlib.Tactic.Ring
/-!
# Times in binary64 numbers

A time is a number of the format that is not negative, infinity included. Its height is its number
of units, and that of infinity is where the finite numbers end: so the times are measured by their
heights, and sums and differences of times are those of the heights, rounded.
-/

namespace ClusterBackup.Binary64

/-! ## Numbers of the format -/

def InFormat : Binary64 → Prop
  | nan => True
  | infinite _ => True
  | finite _ m e => Fits m e

def IsFinite : Binary64 → Prop
  | finite .. => True
  | _ => False

/-- A number of the format that is not negative. -/
def IsTime : Binary64 → Prop
  | nan => False
  | infinite negative => negative = false
  | finite negative m e => Fits m e ∧ (negative = true → m = 0)

def height : Binary64 → Nat
  | finite _ m e => units m e
  | _ => range

variable {s t : Bool} {m n : Nat} {e f : Int} {x y : Binary64}

theorem IsTime.inFormat (h : IsTime x) : InFormat x := by
  cases x with
  | nan => trivial
  | infinite => trivial
  | finite => exact h.1

theorem IsTime.height_le (h : IsTime x) : height x ≤ range := by
  cases x with
  | nan => exact le_rfl
  | infinite => exact le_rfl
  | finite => exact h.1.units_lt.le

theorem IsTime.representable (h : IsTime x) : Representable (height x) := by
  cases x with
  | nan => exact representable_range
  | infinite => exact representable_range
  | finite => exact h.1.representable

theorem IsTime.isFinite_iff (h : IsTime x) : IsFinite x ↔ height x < range := by
  cases x with
  | nan => exact h.elim
  | infinite => simp [IsFinite, height]
  | finite => simpa [IsFinite, height] using h.1.units_lt

/-! ## Order -/

theorem signed_mul (s : Bool) (m k : Nat) : signed s m * k = signed s (m * k) := by
  cases s <;> simp [signed]

theorem signed_not (s : Bool) (m : Nat) : signed (!s) m = -signed s m := by
  cases s <;> simp [signed]

theorem signed_of_imp (h : s = true → m = 0) : signed s m = m := by
  cases s with
  | false => rfl
  | true => simp [signed, h rfl]

theorem IsTime.signed_units (h : IsTime (finite s m e)) : signed s (units m e) = units m e :=
  signed_of_imp fun hs => units_eq_zero.2 (h.2 hs)

/-- Aligned mantissas are numbers of units of one size. -/
theorem signed_mul_twoTo (hm : Fits m e) (hn : Fits n f) :
    signed s m * twoTo (e - f) * (2 ^ (min e f + 1074).toNat : Nat) = signed s (units m e) := by
  rw [signed_mul, signed_mul, mul_twoTo_units hm.least hn.least]

theorem signed_mul_twoTo' (hm : Fits m e) (hn : Fits n f) :
    signed t n * twoTo (f - e) * (2 ^ (min e f + 1074).toNat : Nat) = signed t (units n f) := by
  rw [min_comm, signed_mul_twoTo hn hm]

theorem lt_finite (hm : Fits m e) (hn : Fits n f) :
    lt (finite s m e) (finite t n f) = decide (signed s (units m e) < signed t (units n f)) := by
  have hpos : (0 : Int) < (2 ^ (min e f + 1074).toNat : Nat) :=
    Int.natCast_pos.2 (Nat.two_pow_pos _)
  show decide (signed s m * twoTo (e - f) < signed t n * twoTo (f - e)) = _
  rw [decide_eq_decide, ← signed_mul_twoTo hm hn, ← signed_mul_twoTo' hm hn,
    Int.mul_lt_mul_right hpos]

theorem same_finite (hm : Fits m e) (hn : Fits n f) :
    same (finite s m e) (finite t n f) = decide (signed s (units m e) = signed t (units n f)) := by
  have hpos : (2 ^ (min e f + 1074).toNat : Nat) ≠ (0 : Int) :=
    Int.natCast_ne_zero.2 (Nat.two_pow_pos _).ne'
  show decide (signed s m * twoTo (e - f) = signed t n * twoTo (f - e)) = _
  rw [decide_eq_decide, ← signed_mul_twoTo hm hn, ← signed_mul_twoTo' hm hn,
    Int.mul_eq_mul_right_iff hpos]

theorem le_finite (hm : Fits m e) (hn : Fits n f) :
    Seconds.le (finite s m e) (finite t n f) =
      decide (signed s (units m e) ≤ signed t (units n f)) := by
  show (lt (finite s m e) (finite t n f) || same (finite s m e) (finite t n f)) = _
  rw [lt_finite hm hn, same_finite hm hn, Bool.eq_iff_iff]
  simp [Int.le_iff_lt_or_eq]

theorem measured : Seconds.Measured height IsTime where
  lt_eq {x y} hx hy := by
    cases x with
    | nan => exact hx.elim
    | infinite s =>
      cases y with
      | nan => exact hy.elim
      | infinite t => simp [Seconds.lt, lt, height, show s = false from hx]
      | finite t n f =>
        have hlt := hy.1.units_lt
        rw [show s = false from hx]
        exact (decide_eq_false hlt.not_gt).symm
    | finite s m e =>
      cases y with
      | nan => exact hy.elim
      | infinite t => simp [Seconds.lt, lt, height, show t = false from hy, hx.1.units_lt]
      | finite t n f =>
        refine (lt_finite hx.1 hy.1).trans ?_
        rw [hx.signed_units, hy.signed_units, decide_eq_decide]
        exact Int.ofNat_lt
  same_eq {x y} hx hy := by
    cases x with
    | nan => exact hx.elim
    | infinite s =>
      cases y with
      | nan => exact hy.elim
      | infinite t =>
        simp [Seconds.same, same, height, show s = false from hx, show t = false from hy]
      | finite t n f => simp [Seconds.same, same, height, hy.1.units_lt.ne']
    | finite s m e =>
      cases y with
      | nan => exact hy.elim
      | infinite t => simp [Seconds.same, same, height, hx.1.units_lt.ne]
      | finite t n f =>
        refine (same_finite hx.1 hy.1).trans ?_
        rw [hx.signed_units, hy.signed_units, decide_eq_decide]
        exact Int.ofNat_inj

/-! ## Sums and differences -/

theorem IsRounded.isTime (h : IsRounded s n x) (hs : s = true → n = 0) :
    IsTime x ∧ height x = min (nearest n) range := by
  cases h with
  | finite hfits hunits =>
    refine ⟨⟨hfits, fun hneg => ?_⟩, ?_⟩
    · rw [hs hneg, nearest_zero] at hunits
      exact units_eq_zero.1 hunits
    · rw [← hunits, min_eq_left hfits.units_lt.le]
      rfl
  | infinite hrange =>
    refine ⟨?_, (min_eq_right hrange).symm⟩
    cases s with
    | false => rfl
    | true =>
      rw [hs rfl, nearest_zero] at hrange
      exact absurd range_pos hrange.not_gt

/-- A sum of finite numbers is the exact one, rounded. -/
theorem isRounded_add {S : Int} (hm : Fits m e) (hn : Fits n f)
    (hS : S = signed s (units m e) + signed t (units n f)) :
    IsRounded (if S = 0 then s && t else decide (S < 0)) S.natAbs
      (finite s m e + finite t n f) := by
  have hpos : (0 : Int) < (2 ^ (min e f + 1074).toNat : Nat) :=
    Int.natCast_pos.2 (Nat.two_pow_pos _)
  have hmin : -1074 ≤ min e f := le_min hm.least hn.least
  have hr := isRounded_ofScaled (s && t)
    (signed s m * twoTo (e - f) + signed t n * twoTo (f - e)) hmin
  have hscale : (signed s m * twoTo (e - f) + signed t n * twoTo (f - e)) *
      (2 ^ (min e f + 1074).toNat : Nat) = S := by
    rw [Int.add_mul, signed_mul_twoTo hm hn, signed_mul_twoTo' hm hn, hS]
  show IsRounded _ _ (ofScaled (s && t)
    (signed s m * twoTo (e - f) + signed t n * twoTo (f - e)) (min e f))
  generalize signed s m * twoTo (e - f) + signed t n * twoTo (f - e) = N at hr hscale
  have habs : units N.natAbs (min e f) = S.natAbs := by
    rw [← hscale, Int.natAbs_mul, Int.natAbs_natCast, units]
  have hzero : S = 0 ↔ N = 0 := by
    rw [← hscale, Int.mul_eq_zero]
    exact or_iff_left hpos.ne'
  have hneg : S < 0 ↔ N < 0 := by
    rw [← hscale]
    exact ⟨fun h => Int.neg_of_mul_neg_left h hpos, fun h => Int.mul_neg_of_neg_of_pos h hpos⟩
  rw [habs] at hr
  simpa only [hzero, hneg] using hr

theorem IsRounded.inFormat (h : IsRounded s n x) : InFormat x := by
  cases h with
  | finite hfits => exact hfits
  | infinite => trivial

theorem InFormat.add (hx : InFormat x) (hy : InFormat y) : InFormat (x + y) := by
  cases x with
  | nan => trivial
  | infinite s =>
    cases y with
    | nan => trivial
    | infinite t =>
      show InFormat (if s = t then infinite s else nan)
      split
      · trivial
      · trivial
    | finite => trivial
  | finite s m e =>
    cases y with
    | nan => trivial
    | infinite t => trivial
    | finite t n f => exact (isRounded_add hx hy rfl).inFormat

theorem min_nearest_of_le (h : range ≤ n) : min (nearest n) range = range := by
  apply min_eq_right
  rw [← nearest_of_representable representable_range]
  exact nearest_mono h

theorem IsTime.add (hx : IsTime x) (hy : IsTime y) :
    IsTime (x + y) ∧ height (x + y) = min (nearest (height x + height y)) range := by
  cases x with
  | nan => exact hx.elim
  | infinite s =>
    obtain rfl : s = false := hx
    have hsum : infinite false + y = infinite false := by
      cases y with
      | nan => exact hy.elim
      | infinite t =>
        obtain rfl : t = false := hy
        rfl
      | finite => rfl
    rw [hsum]
    exact ⟨rfl, (min_nearest_of_le (Nat.le_add_right _ _)).symm⟩
  | finite s m e =>
    cases y with
    | nan => exact hy.elim
    | infinite t => exact ⟨hy, (min_nearest_of_le (Nat.le_add_left _ _)).symm⟩
    | finite t n f =>
      have hr := isRounded_add (s := s) (t := t) hx.1 hy.1 rfl
      rw [hx.signed_units, hy.signed_units] at hr
      refine hr.isTime fun hneg => ?_
      split at hneg
      · rename_i hzero
        rw [hzero]
        rfl
      · have hlt := of_decide_eq_true hneg
        omega

theorem IsTime.sub (hx : IsTime x) (hfin : IsFinite x) (hy : IsTime y)
    (h : height y ≤ height x) :
    IsTime (x - y) ∧ height (x - y) = nearest (height x - height y) := by
  cases x with
  | nan => exact hx.elim
  | infinite s => exact hfin.elim
  | finite s m e =>
    cases y with
    | nan => exact hy.elim
    | infinite t => exact absurd h hx.1.units_lt.not_ge
    | finite t n f =>
      have hle : units n f ≤ units m e := h
      have hr := isRounded_add (s := s) (t := !t) hx.1 hy.1 rfl
      rw [signed_not, hx.signed_units, hy.signed_units] at hr
      have hunits : (units m e + -units n f : Int).natAbs = units m e - units n f := by omega
      have htime := hr.isTime fun hneg => ?_
      · rw [hunits] at htime
        refine ⟨htime.1, htime.2.trans (min_eq_left ?_)⟩
        calc nearest (units m e - units n f)
            ≤ nearest (units m e) := nearest_mono (Nat.sub_le _ _)
          _ = units m e := nearest_of_representable hx.1.representable
          _ ≤ range := hx.1.units_lt.le
      · split at hneg
        · rename_i hzero
          rw [hzero]
          rfl
        · have hlt := of_decide_eq_true hneg
          omega

theorem zero_eq : (Seconds.zero : Binary64) = finite false 0 (-1074) := by decide

theorem fits_zero : Fits 0 (-1074) := ⟨by decide, by decide, by decide⟩

theorem IsRounded.le_zero {S : Int}
    (h : IsRounded (if S = 0 then s else decide (S < 0)) S.natAbs x) :
    Seconds.le x Seconds.zero = decide (S ≤ 0) := by
  rw [zero_eq]
  have hunits : units 0 (-1074) = 0 := units_eq_zero.2 rfl
  rcases Int.lt_trichotomy S 0 with hneg | hzero | hpos
  · rw [if_neg hneg.ne, decide_eq_true hneg] at h
    rw [decide_eq_true hneg.le]
    cases h with
    | finite hfits =>
      rw [le_finite hfits fits_zero, hunits]
      simp [signed]
    | infinite => rfl
  · rw [hzero, Int.natAbs_zero] at h
    rw [decide_eq_true hzero.le]
    cases h with
    | finite hfits hnearest =>
      rw [le_finite hfits fits_zero, hunits, hnearest, nearest_zero]
      simp [signed]
    | infinite hrange =>
      rw [nearest_zero] at hrange
      exact absurd range_pos hrange.not_gt
  · rw [if_neg hpos.ne', decide_eq_false hpos.not_gt] at h
    rw [decide_eq_false hpos.not_ge]
    cases h with
    | finite hfits hnearest =>
      have hlt : 0 < nearest S.natAbs := nearest_pos (Int.natAbs_pos.2 hpos.ne')
      rw [le_finite hfits fits_zero, hunits, hnearest]
      simp [signed, hlt.ne']
    | infinite => rfl

/-- The difference of two numbers is at most zero if the first one is at most the second. -/
theorem le_sub_zero (hx : InFormat x) (hfin : IsFinite x) (hy : IsTime y) :
    Seconds.le (x - y) Seconds.zero = Seconds.le x y := by
  cases x with
  | nan => exact hfin.elim
  | infinite s => exact hfin.elim
  | finite s m e =>
    cases y with
    | nan => exact hy.elim
    | infinite t =>
      obtain rfl : t = false := hy
      rw [zero_eq]
      rfl
    | finite t n f =>
      have hle := (isRounded_add (s := s) (t := !t) hx hy.1 rfl).le_zero
      rw [le_finite hx hy.1]
      refine hle.trans ?_
      rw [decide_eq_decide, signed_not]
      omega

/-! ## Delays -/

theorem isTime_natCast (n : Nat) :
    IsTime (n : Binary64) ∧ height (n : Binary64) = min (nearest (units n 0)) range := by
  have hr := isRounded_ofScaled false n (e := 0) (by decide)
  refine hr.isTime fun hneg => ?_
  split at hneg
  · cases hneg
  · have hlt := of_decide_eq_true hneg
    omega

theorem isTime_mul (he : -1074 ≤ e + f) : IsTime (finite false m e * finite false n f) := by
  have hr := isRounded_ofScaled (false != false) (signed false m * signed false n) he
  refine (hr.isTime fun hneg => ?_).1
  split at hneg
  · cases hneg
  · have hlt := of_decide_eq_true hneg
    have hnonneg : (0 : Int) ≤ signed false m * signed false n :=
      Int.mul_nonneg (Int.natCast_nonneg m) (Int.natCast_nonneg n)
    omega

theorem units_two_pow (d : Nat) : units (2 ^ d) 0 = 2 ^ (d + 1074) := by
  rw [Nat.pow_add, units]
  congr 2

theorem natCast_two_pow (d : Nat) : ((2 ^ d : Nat) : Binary64) = infinite false ∨
    ∃ m e, ((2 ^ d : Nat) : Binary64) = finite false m e ∧ -52 ≤ e := by
  obtain ⟨htime, hheight⟩ := isTime_natCast (2 ^ d)
  generalize ((2 ^ d : Nat) : Binary64) = x at htime hheight
  have hexact : nearest (units (2 ^ d) 0) = units (2 ^ d) 0 :=
    nearest_of_representable ⟨1, d + 1074, by decide, by rw [Nat.one_mul, units_two_pow]⟩
  rw [hexact] at hheight
  cases x with
  | nan => exact htime.elim
  | infinite s => exact .inl (by rw [show s = false from htime])
  | finite s m e =>
    have hlt := htime.1.units_lt
    have hunits : units m e = units (2 ^ d) 0 := by
      change units m e = _ at hheight
      omega
    have hpow : 2 ^ (d + 1074) < 2 ^ (53 + (e + 1074).toNat) := by
      calc 2 ^ (d + 1074)
          = units m e := by rw [hunits, units_two_pow]
        _ < 2 ^ 53 * 2 ^ (e + 1074).toNat :=
            Nat.mul_lt_mul_of_pos_right htime.1.mantissa (Nat.two_pow_pos _)
        _ = 2 ^ (53 + (e + 1074).toNat) := (Nat.pow_add ..).symm
    have hexp := (Nat.pow_lt_pow_iff_right (by decide)).1 hpow
    have hm : m ≠ 0 := by
      intro hzero
      have hpos : 0 < units (2 ^ d) 0 := Nat.mul_pos (Nat.two_pow_pos d) (Nat.two_pow_pos _)
      rw [← hunits, units_eq_zero.2 hzero] at hpos
      exact absurd hpos (Nat.lt_irrefl 0)
    have hs : s = false := by
      cases s with
      | false => rfl
      | true => exact absurd (htime.2 rfl) hm
    exact .inr ⟨m, e, by rw [hs], by omega⟩

/-- What is waited after some failures is five milliseconds, doubled for each. -/
theorem backoff_eq {d : Nat} {b : Binary64} (h : Seconds.backoff? d = some b) :
    b = finite false 5764607523034235 (-60) * ((2 ^ d : Nat) : Binary64) := by
  have hbase : ofDecimal false 5 (-3) = finite false 5764607523034235 (-60) := by decide +kernel
  change (if d < 1024 then some (ofDecimal false 5 (-3) * ((2 ^ d : Nat) : Binary64)) else none) =
    some b at h
  split at h
  · rw [← hbase]
    exact (Option.some.inj h).symm
  · cases h

theorem isTime_backoff {d : Nat} {b : Binary64} (h : Seconds.backoff? d = some b) : IsTime b := by
  rw [backoff_eq h]
  rcases natCast_two_pow d with hinf | ⟨m, e, heq, he⟩
  · rw [hinf]
    rfl
  · rw [heq]
    exact isTime_mul (by omega)

theorem negative_of_not_isTime (hx : InFormat (finite s m e)) (hnot : ¬IsTime (finite s m e)) :
    s = true := by
  cases s with
  | false => exact absurd ⟨hx, fun h => absurd h Bool.false_ne_true⟩ hnot
  | true => rfl

theorem le_of_not_isTime (hx : InFormat x) (hfin : IsFinite x) (hnot : ¬IsTime x)
    (hy : IsTime y) : Seconds.le x y = true := by
  cases x with
  | nan => exact hfin.elim
  | infinite => exact hfin.elim
  | finite s m e =>
    cases y with
    | nan => exact hy.elim
    | infinite t =>
      obtain rfl : t = false := hy
      rfl
    | finite t n f =>
      rw [le_finite hx hy.1, negative_of_not_isTime hx hnot, hy.signed_units]
      refine decide_eq_true ?_
      simp only [signed, if_true]
      omega

theorem not_lt_of_not_isTime (hx : InFormat x) (hnot : ¬IsTime x) (hy : IsTime y) :
    Seconds.lt y x = false := by
  cases x with
  | nan => cases y <;> rfl
  | infinite s =>
    have hs : s = true := by simpa [IsTime] using hnot
    cases y with
    | nan => rfl
    | infinite t => simp [Seconds.lt, lt, show t = false from hy]
    | finite => simp [Seconds.lt, lt, hs]
  | finite s m e =>
    obtain rfl : s = true := negative_of_not_isTime hx hnot
    cases y with
    | nan => rfl
    | infinite t => simp [Seconds.lt, lt, show t = false from hy]
    | finite t n f =>
      refine (lt_finite hy.1 hx).trans (decide_eq_false ?_)
      rw [hy.signed_units]
      simp only [signed, if_true]
      omega

end ClusterBackup.Binary64
