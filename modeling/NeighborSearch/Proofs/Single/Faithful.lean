import Mathlib

/-!
# Faithful rounding

Of the rounding of single precision, most results need nothing but this: no number that single
precision has room for lies between an exact number and what it is rounded to. So rounding keeps all
bounds that have room, is exact where it can be, and is off by one unit in the last place at most.
This file gives

1. the numbers that have room;
2. faithful rounding, and that it is what rounding to a neighbor on a grid does;
3. the errors, relative and from underflow.
-/

namespace NeighborSearch.Single

/-! ## Numbers with room -/

/-- A number that single precision has room for, whatever its size: an integer of 24 bits times a
power of two, down to that of the smallest positive number. -/
def Representable (f : ℝ) : Prop :=
  ∃ (m : ℤ) (e : ℤ), |m| ≤ 2 ^ 24 ∧ -149 ≤ e ∧ f = m * 2 ^ e

/-- The number of a mantissa and an exponent. -/
noncomputable def scaled (m e : ℤ) : ℝ :=
  m * 2 ^ e

/-- The largest finite value: with all 24 bits, at the largest exponent. -/
noncomputable def largest : ℝ :=
  (2 ^ 24 - 1) * 2 ^ (104 : ℤ)

theorem Representable.neg {f : ℝ} (h : Representable f) : Representable (-f) := by
  obtain ⟨m, e, hm, he, rfl⟩ := h
  refine ⟨-m, e, by rwa [abs_neg], he, ?_⟩
  push_cast
  ring

theorem Representable.abs {f : ℝ} (h : Representable f) : Representable |f| := by
  rcases abs_choice f with hf | hf <;> rw [hf]
  · exact h
  · exact h.neg

theorem representable_intCast {n : ℤ} (h : |n| ≤ 2 ^ 24) : Representable n :=
  ⟨n, 0, h, by omega, by rw [zpow_zero, mul_one]⟩

theorem representable_zero : Representable 0 := by
  exact_mod_cast representable_intCast (n := 0) (by decide)

theorem representable_two_zpow {e : ℤ} (h : -149 ≤ e) : Representable (2 ^ e) :=
  ⟨1, e, by decide, h, by rw [Int.cast_one, one_mul]⟩

theorem representable_largest : Representable largest := by
  refine ⟨2 ^ 24 - 1, 104, by decide, by decide, ?_⟩
  unfold largest
  norm_num

theorem largest_lt : largest < 2 ^ (128 : ℤ) := by
  unfold largest
  norm_num

/-! ## Faithful rounding -/

/-- A number that the exact number `x` may be rounded to: none that has room in single precision
lies between the two. -/
structure Faithful (x v : ℝ) : Prop where
  le_of_le : ∀ f, Representable f → x ≤ f → v ≤ f
  le_of_ge : ∀ f, Representable f → f ≤ x → f ≤ v

section Faithful

variable {x v f : ℝ}

theorem Faithful.refl (x : ℝ) : Faithful x x :=
  ⟨fun _ _ h => h, fun _ _ h => h⟩

theorem Faithful.neg (h : Faithful x v) : Faithful (-x) (-v) where
  le_of_le f hf hx := by
    have := h.le_of_ge (-f) hf.neg (by linarith)
    linarith
  le_of_ge f hf hx := by
    have := h.le_of_le (-f) hf.neg (by linarith)
    linarith

/-- A number that has room is not changed. -/
theorem Faithful.eq (h : Faithful x v) (hx : Representable x) : v = x :=
  le_antisymm (h.le_of_le x hx le_rfl) (h.le_of_ge x hx le_rfl)

/-- A number with room is on the grid of the numbers with exponent `e`, or below all those that need
24 bits at this exponent. -/
theorem Representable.on_grid (hf : Representable f) (e : ℤ) :
    (∃ k : ℤ, f = k * 2 ^ e) ∨ e ≠ -149 ∧ f ≤ 2 ^ 23 * 2 ^ e := by
  obtain ⟨m, b, hm, hb, rfl⟩ := hf
  by_cases hbe : e ≤ b
  · left
    refine ⟨m * 2 ^ (b - e).toNat, ?_⟩
    have hsplit : b = ((b - e).toNat : ℤ) + e := by omega
    have hpow : (2 : ℝ) ^ b = 2 ^ (b - e).toNat * 2 ^ e := by
      conv_lhs => rw [hsplit]
      rw [zpow_add₀ two_ne_zero, zpow_natCast]
    rw [hpow]
    push_cast
    ring
  · right
    refine ⟨by omega, ?_⟩
    have hm' : (m : ℝ) ≤ 2 ^ 24 := by exact_mod_cast (le_abs_self m).trans hm
    have hle : (2 : ℝ) ^ b ≤ 2 ^ (e - 1) := zpow_le_zpow_right₀ one_le_two (by omega)
    calc (m : ℝ) * 2 ^ b ≤ 2 ^ 24 * 2 ^ (e - 1) := by gcongr
      _ = 2 ^ 23 * 2 ^ e := by
        rw [zpow_sub_one₀ two_ne_zero]
        ring

/-- Rounding to one of the two neighbors on a grid whose mantissas use 24 bits. -/
theorem faithful_of_grid {M R : ℕ} {e : ℤ} (hM : e = -149 ∨ 2 ^ 23 ≤ M)
    (hle : M * 2 ^ e ≤ x) (hlt : x < (M + 1) * 2 ^ e) (hR : R = M ∨ R = M + 1)
    (hexact : x = M * 2 ^ e → R = M) : Faithful x (R * 2 ^ e) := by
  have hpos : (0 : ℝ) < 2 ^ e := zpow_pos two_pos e
  have hMR : (M : ℝ) ≤ R := by
    have : M ≤ R := by omega
    exact_mod_cast this
  have hnormal (h : e ≠ -149) : (2 : ℝ) ^ 23 * 2 ^ e ≤ M * 2 ^ e := by
    have : 2 ^ 23 ≤ M := hM.resolve_left h
    have : (2 : ℝ) ^ 23 ≤ M := by exact_mod_cast this
    gcongr
  constructor
  · intro f hf hx
    rcases hR with rfl | rfl
    · exact hle.trans hx
    · -- something was dropped, so that `f` is above the lower neighbor
      have hne : x ≠ M * 2 ^ e := fun h => by have := hexact h; omega
      have hlower : (M : ℝ) * 2 ^ e < f := (lt_of_le_of_ne hle hne.symm).trans_le hx
      rcases hf.on_grid e with ⟨k, rfl⟩ | ⟨hne', hsmall⟩
      · have hk : (M : ℤ) < k := by exact_mod_cast lt_of_mul_lt_mul_right hlower hpos.le
        have hk' : ((M + 1 : ℕ) : ℝ) ≤ k := by exact_mod_cast hk
        gcongr
      · exact absurd (hsmall.trans (hnormal hne')) (not_le.2 hlower)
  · intro f hf hx
    have hfM : f ≤ M * 2 ^ e := by
      rcases hf.on_grid e with ⟨k, rfl⟩ | ⟨hne', hsmall⟩
      · have hk : k < (M + 1 : ℕ) := by
          have := lt_of_mul_lt_mul_right (hx.trans_lt hlt) hpos.le
          exact_mod_cast this
        have hk' : (k : ℝ) ≤ M := by
          have : k ≤ M := by omega
          exact_mod_cast this
        gcongr
      · exact hsmall.trans (hnormal hne')
    exact hfM.trans (by gcongr)

/-! ## Errors -/

/-- One unit in the last place of a number, relative to it. -/
noncomputable def unitRoundoff : ℝ := 2 ^ (-23 : ℤ)

/-- The smallest positive number with room. -/
noncomputable def leastPositive : ℝ := 2 ^ (-149 : ℤ)

/-- The neighbors of a positive number on its grid. -/
theorem Faithful.bracket (h : Faithful x v) {M : ℤ} {e : ℤ} (he : -149 ≤ e) (hM0 : 0 ≤ M)
    (hM : M < 2 ^ 24) (hle : M * 2 ^ e ≤ x) (hlt : x < (M + 1) * 2 ^ e) : |v - x| ≤ 2 ^ e := by
  have hlower : M * 2 ^ e ≤ v :=
    h.le_of_ge _ ⟨M, e, by rw [abs_of_nonneg hM0]; omega, he, rfl⟩ hle
  have hupper : v ≤ (M + 1) * 2 ^ e := by
    refine h.le_of_le _ ⟨M + 1, e, ?_, he, ?_⟩ hlt.le
    · rw [abs_of_nonneg (by omega)]; omega
    · push_cast; ring
  rw [abs_le]
  constructor <;> linarith

/-- Each number has neighbors on a grid that is as fine as single precision is there. -/
theorem exists_grid (hx : 0 ≤ x) :
    ∃ (M : ℤ) (e : ℤ), -149 ≤ e ∧ 0 ≤ M ∧ M < 2 ^ 24 ∧ M * 2 ^ e ≤ x ∧ x < (M + 1) * 2 ^ e
      ∧ (e = -149 ∨ 2 ^ e ≤ 2 ^ (-23 : ℤ) * x) := by
  have key (e : ℤ) (hlt : x < 2 ^ 24 * 2 ^ e) :
      0 ≤ ⌊x / 2 ^ e⌋ ∧ ⌊x / 2 ^ e⌋ < 2 ^ 24 ∧ ⌊x / 2 ^ e⌋ * 2 ^ e ≤ x
        ∧ x < (⌊x / 2 ^ e⌋ + 1) * (2 : ℝ) ^ e := by
    have hpos : (0 : ℝ) < 2 ^ e := zpow_pos two_pos e
    refine ⟨Int.floor_nonneg.2 (by positivity), ?_, ?_, ?_⟩
    · rw [Int.floor_lt, div_lt_iff₀ hpos]
      exact_mod_cast hlt
    · rw [← le_div_iff₀ hpos]
      exact Int.floor_le _
    · rw [← div_lt_iff₀ hpos]
      exact Int.lt_floor_add_one _
  -- small numbers are on the grid of the smallest exponent, others use all bits of the mantissa
  by_cases hsmall : x < 2 ^ 24 * 2 ^ (-149 : ℤ)
  · obtain ⟨h0, h1, h2, h3⟩ := key _ hsmall
    exact ⟨_, _, le_rfl, h0, h1, h2, h3, .inl rfl⟩
  · rw [not_lt] at hsmall
    have hpos : 0 < x := lt_of_lt_of_le (by positivity) hsmall
    obtain ⟨n, hn, hn'⟩ := exists_mem_Ico_zpow hpos one_lt_two
    have hpow (k : ℤ) : (2 : ℝ) ^ 24 * 2 ^ k = 2 ^ (k + 24) := by
      rw [zpow_add₀ two_ne_zero, mul_comm]
      norm_num
    have hge : -149 ≤ n - 23 := by
      by_contra hlt
      have hle : (2 : ℝ) ^ (n + 1) ≤ 2 ^ (-149 + 24 : ℤ) :=
        zpow_le_zpow_right₀ one_le_two (by omega)
      rw [hpow] at hsmall
      linarith
    obtain ⟨h0, h1, h2, h3⟩ := key (n - 23) (by
      rw [hpow]
      refine hn'.trans_eq ?_
      congr 1
      omega)
    refine ⟨_, _, hge, h0, h1, h2, h3, .inr ?_⟩
    calc (2 : ℝ) ^ (n - 23) = 2 ^ (-23 : ℤ) * 2 ^ n := by
          rw [← zpow_add₀ two_ne_zero]
          congr 1
          omega
      _ ≤ 2 ^ (-23 : ℤ) * x := by gcongr

/-- The error of rounding is at most one unit in the last place. -/
theorem Faithful.error (h : Faithful x v) :
    |v - x| ≤ unitRoundoff * |x| + leastPositive := by
  have hnonneg {x v : ℝ} (h : Faithful x v) (hx : 0 ≤ x) :
      |v - x| ≤ unitRoundoff * |x| + leastPositive := by
    obtain ⟨M, e, he, hM0, hM, hle, hlt, hcase⟩ := exists_grid hx
    refine (h.bracket he hM0 hM hle hlt).trans ?_
    rw [abs_of_nonneg hx]
    unfold unitRoundoff leastPositive
    rcases hcase with rfl | hrel
    · have : 0 ≤ (2 : ℝ) ^ (-23 : ℤ) * x := by positivity
      linarith
    · have : 0 ≤ (2 : ℝ) ^ (-149 : ℤ) := by positivity
      linarith
  rcases le_total 0 x with hx | hx
  · exact hnonneg h hx
  · have := hnonneg h.neg (by linarith)
    rwa [abs_neg, neg_sub_neg, abs_sub_comm] at this

/-- Rounding a multiple of the smallest positive number has no error but a relative one. -/
theorem Faithful.error_of_multiple (h : Faithful x v) {k : ℤ} (hx : x = k * leastPositive) :
    |v - x| ≤ unitRoundoff * |x| := by
  have hnonneg {x v : ℝ} (h : Faithful x v) (hx : 0 ≤ x) {k : ℤ} (hk : x = k * leastPositive) :
      |v - x| ≤ unitRoundoff * |x| := by
    obtain ⟨M, e, he, hM0, hM, hle, hlt, rfl | hrel⟩ := exists_grid hx
    · have hpos : (0 : ℝ) < 2 ^ (-149 : ℤ) := zpow_pos two_pos _
      rw [hk] at hle hlt
      have hle' : M ≤ k := by exact_mod_cast le_of_mul_le_mul_right hle hpos
      have hlt' : k < M + 1 := by exact_mod_cast lt_of_mul_lt_mul_right hlt hpos.le
      have hv := h.eq ⟨k, -149, by rw [abs_of_nonneg] <;> omega, le_rfl, hk⟩
      rw [hv, sub_self, abs_zero]
      unfold unitRoundoff
      positivity
    · rw [abs_of_nonneg hx]
      exact (h.bracket he hM0 hM hle hlt).trans hrel
  rcases le_total 0 x with h0 | h0
  · exact hnonneg h h0 hx
  · have hk : -x = ((-k : ℤ) : ℝ) * leastPositive := by
      rw [hx]
      push_cast
      ring
    have := hnonneg h.neg (by linarith) hk
    rwa [abs_neg, neg_sub_neg, abs_sub_comm] at this

/-- The error of a square, from that of the number. -/
theorem abs_sq_sub_sq_le {d : ℝ} (h : |v - x| ≤ d) : |v ^ 2 - x ^ 2| ≤ d * (2 * |x| + d) := by
  have hboth : |v + x| ≤ 2 * |x| + d := by
    calc |v + x| = |(v - x) + 2 * x| := by ring_nf
      _ ≤ |v - x| + |2 * x| := abs_add_le _ _
      _ = |v - x| + 2 * |x| := by rw [abs_mul, abs_two]
      _ ≤ 2 * |x| + d := by linarith
  have hnonneg : 0 ≤ d := (abs_nonneg _).trans h
  rw [sq_sub_sq, abs_mul, mul_comm]
  gcongr

end Faithful

end NeighborSearch.Single
