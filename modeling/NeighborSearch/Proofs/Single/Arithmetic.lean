import NeighborSearch.Proofs.Single.Operations

/-!
# Arithmetic of values

Each operation on finite values rounds its exact result once. If the rounded number has room among
the patterns it is the result, and else the result is an infinity. This file gives

1. what follows for a result from the exact number (`RoundsTo`);
2. the exact number of each operation.
-/

namespace NeighborSearch.Single

open Float.Model Float.Model.UnpackedFloat

/-- A value that the exact number `x` is rounded to. -/
def RoundsTo (x : ℝ) (r : Float32) : Prop :=
  ∃ u, Rounds x u ∧ r.toModel.unpack = clip u

variable {x f : ℝ} {r y z : Float32} {u : UnpackedFloat}

/-! ## Results -/

section Results

/-- A canonical form whose exponent is too large stands for a number above all values. -/
theorem clip_eq_self_or (hu : Canonical u) :
    clip u = u ∨ (clip u).isFinite = false ∧ 2 ^ (128 : ℤ) ≤ |real u| := by
  cases u with
  | finite s m e hm =>
    rw [clip]
    split_ifs with he
    · exact .inl rfl
    · right
      refine ⟨rfl, ?_⟩
      have hm' : 2 ^ 23 ≤ m := hu.2.2.resolve_right (by omega)
      have hm'' : (2 : ℝ) ^ 23 ≤ m := by exact_mod_cast hm'
      rw [real_eq, abs_mul, ← Int.cast_abs, abs_apply, abs_of_pos (zpow_pos two_pos e)]
      calc (2 : ℝ) ^ (128 : ℤ) = 2 ^ 23 * 2 ^ (105 : ℤ) := by norm_num
        _ ≤ (m : ℤ) * 2 ^ e := by
          rw [Int.cast_natCast]
          gcongr
          · exact one_le_two
          · omega
  | _ => exact .inl rfl

/-- A finite result is a rounding of the exact number. -/
theorem RoundsTo.faithful (h : RoundsTo x r) (hr : r.isFinite = true) : Faithful x (value r) := by
  obtain ⟨u, hu, hunpack⟩ := h
  rcases clip_eq_self_or hu.canonical with hclip | ⟨hinfinite, _⟩
  · rw [value, hunpack, hclip]
    exact hu.faithful
  · have hr' : (clip u).isFinite = true := hunpack ▸ hr
    rw [hinfinite] at hr'
    cases hr'

/-- A result is finite if the exact number is not above a number with room that is below the
exponents that are too large. -/
theorem RoundsTo.isFinite (h : RoundsTo x r) (hf : Representable f) (hlarge : f < 2 ^ (128 : ℤ))
    (hx : |x| ≤ f) : r.isFinite = true := by
  obtain ⟨u, hu, hunpack⟩ := h
  rw [abs_le] at hx
  have hreal : |real u| ≤ f :=
    abs_le.2 ⟨hu.faithful.le_of_ge _ hf.neg hx.1, hu.faithful.le_of_le _ hf hx.2⟩
  rcases clip_eq_self_or hu.canonical with hclip | ⟨_, hreal'⟩
  · show r.toModel.unpack.isFinite = true
    rw [hunpack, hclip]
    exact hu.isFinite
  · linarith

/-- A number that has room is the result itself. -/
theorem RoundsTo.exact (h : RoundsTo x r) (hx : Representable x) (hlarge : |x| < 2 ^ (128 : ℤ)) :
    r.isFinite = true ∧ value r = x := by
  have hr := h.isFinite hx.abs hlarge le_rfl
  exact ⟨hr, (h.faithful hr).eq hx⟩

/-- A result that stands for a number is never not a number. -/
theorem RoundsTo.isNaN (h : RoundsTo x r) : r.isNaN = false := by
  obtain ⟨u, hu, hunpack⟩ := h
  show r.toModel.unpack.isNaN = false
  rw [hunpack]
  have hfinite := hu.isFinite
  cases u with
  | notANumber => cases hfinite
  | infinity s => cases hfinite
  | zero s => rfl
  | finite s m e hm =>
    rw [clip]
    split_ifs <;> rfl

/-- A finite value is not above the largest one. -/
theorem abs_value_le_largest (y : Float32) : |value y| ≤ largest := by
  have hcanonical := canonical_unpack y
  have hclip := clip_unpack y
  unfold value
  cases hu : y.toModel.unpack with
  | finite s m e hm =>
    rw [hu] at hcanonical hclip
    have he : e ≤ 104 := by
      by_contra hlarge
      rw [clip, if_neg hlarge] at hclip
      cases hclip
    have hm' : (m : ℝ) ≤ 2 ^ 24 - 1 := by
      have : ((m + 1 : ℕ) : ℝ) ≤ (0x1000000 : ℕ) := by exact_mod_cast hcanonical.1
      push_cast at this
      linarith
    rw [real_eq, abs_mul, ← Int.cast_abs, abs_apply, abs_of_pos (zpow_pos two_pos e),
      Int.cast_natCast]
    unfold largest
    gcongr
    exact one_le_two
  | _ =>
    show |(0 : ℝ)| ≤ largest
    rw [abs_zero]
    unfold largest
    norm_num

/-- A result is finite if the exact number is not above the largest value. -/
theorem RoundsTo.isFinite_of_le (h : RoundsTo x r) (hx : |x| ≤ largest) :
    r.isFinite = true :=
  h.isFinite representable_largest largest_lt hx

end Results

/-! ## Operations -/

section Operations

theorem roundsTo_of_rounds (h : Rounds x u) : RoundsTo x (.ofModel (.pack u)) :=
  ⟨u, h, unpack_ofModel_pack h.canonical⟩

variable (hy : y.isFinite = true) (hz : z.isFinite = true)

include hy in
theorem roundsTo_neg : RoundsTo (-value y) (-y) := by
  rw [value, ← real_neg]
  exact roundsTo_of_rounds (rounds_self (canonical_neg (canonical_unpack y))
    (isFinite_neg.trans hy))

include hy hz in
theorem roundsTo_add : RoundsTo (value y + value z) (y + z) :=
  roundsTo_of_rounds (rounds_add (canonical_unpack y) (canonical_unpack z) hy hz)

include hy hz in
theorem roundsTo_sub : RoundsTo (value y - value z) (y - z) :=
  roundsTo_of_rounds (rounds_sub (canonical_unpack y) (canonical_unpack z) hy hz)

include hy hz in
theorem roundsTo_mul : RoundsTo (value y * value z) (y * z) :=
  roundsTo_of_rounds (rounds_mul (canonical_unpack y) (canonical_unpack z) hy hz)

include hy hz in
theorem roundsTo_div (hne : value z ≠ 0) : RoundsTo (value y / value z) (y / z) :=
  roundsTo_of_rounds (rounds_div hy hz hne)

include hy in
theorem roundsTo_sqrt (hnonneg : 0 ≤ value y) : RoundsTo (√(value y)) y.sqrt :=
  roundsTo_of_rounds (rounds_sqrt hy hnonneg)

include hy in
theorem isFinite_sqrt (hnonneg : 0 ≤ value y) :
    y.sqrt.isFinite = true := by
  refine (roundsTo_sqrt hy hnonneg).isFinite_of_le ?_
  rw [abs_of_nonneg (Real.sqrt_nonneg _), Real.sqrt_le_iff]
  have hlarge : 1 ≤ largest := by
    unfold largest
    norm_num
  have hle := (le_abs_self (value y)).trans (abs_value_le_largest y)
  exact ⟨by linarith, by nlinarith⟩

end Operations

end NeighborSearch.Single
