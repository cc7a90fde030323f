import ClusterBackup.Clock.Seconds
import Mathlib.Algebra.Order.Field.Rat
import Mathlib.Order.Lattice
/-!
# Measured times

Times are compared through their values: `Measured` says that on some numbers both comparisons are
those of a linear order. The rationals are measured by themselves, and every delay can be added to
them.
-/

namespace ClusterBackup.Seconds

/-! ## Values -/

section

variable {τ β : Type} [Seconds τ] [LinearOrder β] {value : τ → β} {IsTime : τ → Prop}

/-- Those numbers that are times are compared by their values. -/
structure Measured (value : τ → β) (IsTime : τ → Prop) : Prop where
  lt_eq : ∀ {a b}, IsTime a → IsTime b → lt a b = decide (value a < value b)
  same_eq : ∀ {a b}, IsTime a → IsTime b → same a b = decide (value a = value b)

namespace Measured

theorem le_eq (hm : Measured value IsTime) {a b : τ} (ha : IsTime a) (hb : IsTime b) :
    le a b = decide (value a ≤ value b) := by
  unfold le
  rw [hm.lt_eq ha hb, hm.same_eq ha hb, Bool.eq_iff_iff]
  simp [le_iff_lt_or_eq]

theorem longer (hm : Measured value IsTime) {a b : τ} (ha : IsTime a) (hb : IsTime b) :
    IsTime (longer a b) ∧ value (longer a b) = max (value a) (value b) := by
  unfold Seconds.longer
  rw [hm.lt_eq ha hb]
  by_cases h : value a < value b
  · rw [decide_eq_true h, if_pos rfl]
    exact ⟨hb, (max_eq_right h.le).symm⟩
  · rw [decide_eq_false h, if_neg Bool.false_ne_true]
    exact ⟨ha, (max_eq_left (not_lt.1 h)).symm⟩

theorem shorter (hm : Measured value IsTime) {a b : τ} (ha : IsTime a) (hb : IsTime b) :
    IsTime (shorter a b) ∧ value (shorter a b) = min (value a) (value b) := by
  unfold Seconds.shorter
  rw [hm.lt_eq hb ha]
  by_cases h : value b < value a
  · rw [decide_eq_true h, if_pos rfl]
    exact ⟨hb, (min_eq_right h.le).symm⟩
  · rw [decide_eq_false h, if_neg Bool.false_ne_true]
    exact ⟨ha, (min_eq_left (not_lt.1 h)).symm⟩

end Measured

end

/-! ## Exact times -/

section

variable (a b : Rat)

@[simp] theorem same_rat : same a b = decide (a = b) := rfl

theorem measured_rat : Measured (id : Rat → Rat) fun _ => True where
  lt_eq _ _ := rfl
  same_eq _ _ := rfl

@[simp] theorem le_rat : le a b = decide (a ≤ b) := measured_rat.le_eq trivial trivial

@[simp] theorem zero_rat : (zero : Rat) = 0 := rfl

@[simp] theorem longer_rat : longer a b = max a b := (measured_rat.longer trivial trivial).2

@[simp] theorem shorter_rat : shorter a b = min a b := (measured_rat.shorter trivial trivial).2

@[simp] theorem later?_rat : later? a b = some (a + b) := rfl

end

end ClusterBackup.Seconds
