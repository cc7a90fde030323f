import ClusterBackup.Numeric.Binary64
import Mathlib.Algebra.Order.Group.Nat
import Mathlib.Tactic.Ring
/-!
# Rounding naturals to 53 binary digits

All finite binary64 numbers are multiples of the least positive one. Counted in units of that
number they are naturals, and a result is rounded by rounding its natural to 53 binary digits:
`nearest` is that rounding, with no bound on the range. It preserves the order, leaves alone what
needs no rounding, and never takes a number far away.
-/

namespace ClusterBackup

/-! ## Rounded quotients -/

theorem le_mul_roundDiv (n : Nat) {d : Nat} (hd : 0 < d) :
    2 * n ≤ 2 * (d * roundDiv n d) + d := by
  have hn := Nat.div_add_mod n d
  have hmod := Nat.mod_lt n hd
  unfold roundDiv
  split_ifs with hlow hhigh
  · omega
  · rw [Nat.mul_add]
    omega
  · rw [Nat.mul_add]
    have hnonneg := Nat.zero_le (d * (n / d % 2))
    omega

theorem div_le_roundDiv (n d : Nat) : n / d ≤ roundDiv n d := by
  unfold roundDiv
  split_ifs <;> omega

theorem roundDiv_le_div_add_one (n d : Nat) : roundDiv n d ≤ n / d + 1 := by
  unfold roundDiv
  split_ifs <;> omega

theorem roundDiv_mono {m n d : Nat} (h : m ≤ n) : roundDiv m d ≤ roundDiv n d := by
  have hdiv : m / d ≤ n / d := Nat.div_le_div_right h
  rcases Nat.lt_or_eq_of_le hdiv with hlt | heq
  · exact (roundDiv_le_div_add_one m d).trans (Nat.le_trans hlt (div_le_roundDiv n d))
  · have hm := Nat.div_add_mod m d
    have hn := Nat.div_add_mod n d
    have hmod : m % d ≤ n % d := by
      rw [heq] at hm
      omega
    unfold roundDiv
    rw [heq]
    split_ifs <;> omega

theorem roundDiv_of_dvd {n d : Nat} (hd : 0 < d) (h : d ∣ n) : roundDiv n d = n / d := by
  unfold roundDiv
  rw [Nat.mod_eq_zero_of_dvd h, if_pos hd]

theorem roundDiv_mul_right (n d : Nat) {c : Nat} (hc : 0 < c) :
    roundDiv (n * c) (d * c) = roundDiv n d := by
  unfold roundDiv
  rw [Nat.mul_mod_mul_right, Nat.mul_div_mul_right _ _ hc, ← Nat.mul_assoc]
  simp only [Nat.mul_lt_mul_right hc]

theorem roundDiv_eq_of_mul_eq {m n d f : Nat} (hd : 0 < d) (hf : 0 < f) (h : m * f = n * d) :
    roundDiv m d = roundDiv n f := by
  rw [← roundDiv_mul_right m d hf, ← roundDiv_mul_right n f hd, h, Nat.mul_comm d f]

namespace Binary64

/-! ## The grid -/

/-- How far apart the naturals of 53 binary digits are at a natural. -/
def spacing (n : Nat) : Nat := 2 ^ (n.log2 - 52)

theorem spacing_pos (n : Nat) : 0 < spacing n := Nat.two_pow_pos _

theorem spacing_of_lt {n : Nat} (h : n < 2 ^ 53) : spacing n = 1 := by
  unfold spacing
  by_cases hn : n = 0
  · simp [hn]
  · have hlog : n.log2 < 53 := (Nat.log2_lt hn).2 h
    rw [Nat.sub_eq_zero_of_le (by omega), Nat.pow_zero]

theorem lt_mul_spacing (n : Nat) : n < 2 ^ 53 * spacing n := by
  unfold spacing
  rw [← Nat.pow_add]
  exact Nat.lt_log2_self.trans_le (Nat.pow_le_pow_right Nat.two_pos (by omega))

theorem mul_spacing_le {n : Nat} (h : 2 ^ 52 ≤ n) : 2 ^ 52 * spacing n ≤ n := by
  have hn : n ≠ 0 := (Nat.two_pow_pos 52).trans_le h |>.ne'
  have hlog : 52 ≤ n.log2 := (Nat.le_log2 hn).2 h
  unfold spacing
  rw [← Nat.pow_add, Nat.add_sub_cancel' hlog]
  exact Nat.log2_self_le hn

theorem spacing_mono {m n : Nat} (h : m ≤ n) :
    spacing m = spacing n ∨ 2 * spacing m ≤ spacing n := by
  have hlog : m.log2 ≤ n.log2 := by
    by_cases hm : m = 0
    · simp [hm]
    · exact (Nat.le_log2 (by omega)).2 ((Nat.log2_self_le hm).trans h)
  unfold spacing
  rcases Nat.lt_or_eq_of_le (Nat.sub_le_sub_right hlog 52) with hlt | heq
  · refine .inr ?_
    rw [Nat.mul_comm, ← Nat.pow_succ]
    exact Nat.pow_le_pow_right Nat.two_pos hlt
  · exact .inl (by rw [heq])

/-! ## Rounding -/

/-- The natural of 53 binary digits nearest to a natural, on a tie the even one. -/
def nearest (n : Nat) : Nat := spacing n * roundDiv n (spacing n)

theorem roundDiv_spacing_le (n : Nat) : roundDiv n (spacing n) ≤ 2 ^ 53 := by
  have hdiv : n / spacing n < 2 ^ 53 := Nat.div_lt_of_lt_mul (by
    rw [Nat.mul_comm]
    exact lt_mul_spacing n)
  exact (roundDiv_le_div_add_one _ _).trans hdiv

theorem le_roundDiv_spacing {n : Nat} (h : 2 ^ 52 ≤ n) : 2 ^ 52 ≤ roundDiv n (spacing n) := by
  have hdiv : 2 ^ 52 ≤ n / spacing n := (Nat.le_div_iff_mul_le (spacing_pos n)).2 (mul_spacing_le h)
  exact hdiv.trans (div_le_roundDiv _ _)

theorem nearest_of_lt {n : Nat} (h : n < 2 ^ 53) : nearest n = n := by
  unfold nearest
  rw [spacing_of_lt h, roundDiv_of_dvd Nat.one_pos (Nat.one_dvd n), Nat.div_one, Nat.one_mul]

@[simp] theorem nearest_zero : nearest 0 = 0 := nearest_of_lt (Nat.two_pow_pos 53)

theorem nearest_mono {m n : Nat} (h : m ≤ n) : nearest m ≤ nearest n := by
  unfold nearest
  rcases spacing_mono h with heq | hlt
  · rw [heq]
    exact Nat.mul_le_mul_left _ (roundDiv_mono h)
  · -- The grid is wider at `n`, and a power of two lies between the results.
    have hn : 2 ^ 52 ≤ n := by
      by_contra hsmall
      have hone : spacing n = 1 := spacing_of_lt (by omega)
      have hpos := spacing_pos m
      omega
    calc spacing m * roundDiv m (spacing m)
        ≤ spacing m * 2 ^ 53 := Nat.mul_le_mul_left _ (roundDiv_spacing_le m)
      _ = 2 * spacing m * 2 ^ 52 := by ring
      _ ≤ spacing n * 2 ^ 52 := Nat.mul_le_mul_right _ hlt
      _ ≤ spacing n * roundDiv n (spacing n) := Nat.mul_le_mul_left _ (le_roundDiv_spacing hn)

theorem le_nearest (n : Nat) : 3 * n ≤ 4 * nearest n := by
  rcases Nat.lt_or_ge n (2 ^ 53) with hlt | hge
  · rw [nearest_of_lt hlt]
    omega
  · have herror : 2 * n ≤ 2 * nearest n + spacing n := le_mul_roundDiv n (spacing_pos n)
    have hspacing := mul_spacing_le (Nat.le_trans (by decide) hge)
    omega

theorem nearest_pos {n : Nat} (h : 0 < n) : 0 < nearest n := by
  have hle := le_nearest n
  omega

/-! ## Numbers that need no rounding -/

/-- A natural has at most 53 binary digits and zeros after them. -/
def Representable (n : Nat) : Prop := ∃ m j, m < 2 ^ 53 ∧ n = m * 2 ^ j

theorem nearest_of_representable {n : Nat} (h : Representable n) : nearest n = n := by
  obtain ⟨m, j, hm, rfl⟩ := h
  by_cases hn : m * 2 ^ j = 0
  · rw [hn, nearest_zero]
  · have hlog : (m * 2 ^ j).log2 < 53 + j := by
      rw [Nat.log2_lt hn, Nat.pow_add]
      exact Nat.mul_lt_mul_of_pos_right hm (Nat.two_pow_pos j)
    have hdvd : spacing (m * 2 ^ j) ∣ m * 2 ^ j :=
      (Nat.pow_dvd_pow 2 (by omega)).trans (Nat.dvd_mul_left _ _)
    unfold nearest
    rw [roundDiv_of_dvd (spacing_pos _) hdvd, Nat.mul_div_cancel' hdvd]

/-- A difference that is no greater than the lesser of two numbers needs no rounding. -/
theorem Representable.sub {m n : Nat} (hm : Representable m) (hn : Representable n)
    (h : n ≤ 2 * m) : Representable (n - m) := by
  obtain ⟨a, i, ha, rfl⟩ := hm
  obtain ⟨b, j, hb, rfl⟩ := hn
  rcases Nat.le_total i j with hij | hji
  · obtain ⟨d, rfl⟩ := Nat.exists_eq_add_of_le hij
    have hfactor : b * 2 ^ (i + d) = b * 2 ^ d * 2 ^ i := by ring
    rw [hfactor] at h ⊢
    rw [← Nat.mul_assoc] at h
    have hle : b * 2 ^ d ≤ 2 * a := Nat.le_of_mul_le_mul_right h (Nat.two_pow_pos i)
    exact ⟨b * 2 ^ d - a, i, by omega, by rw [Nat.sub_mul]⟩
  · obtain ⟨d, rfl⟩ := Nat.exists_eq_add_of_le hji
    have hfactor : a * 2 ^ (j + d) = a * 2 ^ d * 2 ^ j := by ring
    rw [hfactor]
    exact ⟨b - a * 2 ^ d, j, by omega, by rw [Nat.sub_mul]⟩

/-! ## Approaching a number -/

/-- Halfway to a number, adding the rounded difference leads right to it. -/
theorem nearest_add_nearest_sub {m n : Nat} (hm : Representable m) (hn : Representable n)
    (hlt : m < n) (h : n ≤ 2 * m) : nearest (m + nearest (n - m)) = n := by
  rw [nearest_of_representable (hm.sub hn h), Nat.add_sub_cancel' hlt.le,
    nearest_of_representable hn]

/-- From anywhere below a number, adding the rounded difference leads at least halfway to it. -/
theorem le_two_mul_nearest {m n : Nat} (hlt : m < n) :
    n ≤ 2 * nearest (m + nearest (n - m)) := by
  have hdiff := le_nearest (n - m)
  have hsum := le_nearest (m + nearest (n - m))
  omega

end Binary64

end ClusterBackup
