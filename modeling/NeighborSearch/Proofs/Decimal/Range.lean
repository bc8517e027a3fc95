import Mathlib
import NeighborSearch.Proofs.Decimal.Shortest
import NeighborSearch.Proofs.Text.Digits

/-!
# The range of shortest decimals

The shortest decimal of a float is not above the interval that rounds to it. So the power of ten of
its leading digit is bounded by the size of the float, whatever its number of digits.
-/

namespace NeighborSearch.Decimal

theorem pow_length_toDigits_le {n : Nat} (h : 0 < n) :
    10 ^ ((Nat.toDigits 10 n).length - 1) ≤ n := by
  rcases Nat.eq_zero_or_pos ((Nat.toDigits 10 n).length - 1) with hzero | hpos
  · rw [hzero]
    exact h
  · by_contra hlt
    have hlength := (Nat.length_toDigits_le_iff (b := 10) (by decide) hpos).2 (Nat.lt_of_not_le hlt)
    omega

namespace Magnitude

variable {x : Magnitude}

/-! ## The upper end -/

theorem le_of_admits {k : Int} {d : Nat} (h : x.admits k d = true) :
    d * x.gridStep k ≤ x.scaled k x.upperQuarters := by
  simp only [admits] at h
  split at h
  · exact (of_decide_eq_true h).2
  · exact Nat.le_of_lt (of_decide_eq_true h).2

theorem gridFloor_mul_le (x : Magnitude) (k : Int) :
    x.gridFloor k * x.gridStep k ≤ x.scaled k x.upperQuarters := by
  have hquarters : 4 * x.mantissa ≤ x.upperQuarters := Nat.le_add_right _ 2
  calc x.gridFloor k * x.gridStep k ≤ x.scaled k (4 * x.mantissa) := Nat.div_mul_le_self _ _
    _ ≤ x.scaled k x.upperQuarters :=
      Nat.mul_le_mul_right _ (Nat.mul_le_mul_right _ hquarters)

/-- Wherever the search stops, its decimal is not above the interval. -/
theorem searchGrids_le (x : Magnitude) (steps : Nat) :
    (x.searchGrids steps).digits * x.gridStep (x.searchGrids steps).exponent
      ≤ x.scaled (x.searchGrids steps).exponent x.upperQuarters := by
  induction steps with
  | zero => exact x.gridFloor_mul_le x.finestGrid
  | succ steps ih =>
    simp only [searchGrids]
    cases hpoint : x.gridPoint? (x.finestGrid + (steps + 1 : Nat)) with
    | some d => exact le_of_admits (admits_of_gridPoint? hpoint)
    | none => exact ih

/-! ## The leading digit -/

/-- A decimal with a large leading power of ten is large. -/
theorem pow_mul_le_of_leading {d : Digits} (hpos : 0 < d.digits) {n : Nat} (h : n ≤ d.leading) :
    10 ^ n * 10 ^ (-d.exponent).toNat ≤ d.digits * 10 ^ d.exponent.toNat := by
  have hlength : n + (-d.exponent).toNat ≤ (d.text.length - 1) + d.exponent.toNat := by
    unfold Digits.leading at h
    omega
  calc 10 ^ n * 10 ^ (-d.exponent).toNat = 10 ^ (n + (-d.exponent).toNat) := (Nat.pow_add ..).symm
    _ ≤ 10 ^ ((d.text.length - 1) + d.exponent.toNat) := Nat.pow_le_pow_right (by decide) hlength
    _ = 10 ^ (d.text.length - 1) * 10 ^ d.exponent.toNat := Nat.pow_add ..
    _ ≤ d.digits * 10 ^ d.exponent.toNat :=
      Nat.mul_le_mul_right _ (pow_length_toDigits_le hpos)

theorem leading_shortest_lt (hpos : 0 < x.mantissa) {n : Nat}
    (h : (4 * x.mantissa + 2) * 2 ^ (x.exponent - 2).toNat < 10 ^ n) : x.shortest.leading < n := by
  obtain ⟨d, hd⟩ : ∃ d, d = x.shortest := ⟨_, rfl⟩
  have hend : d.digits * x.gridStep d.exponent ≤ x.scaled d.exponent x.upperQuarters := by
    rw [hd]
    exact x.searchGrids_le _
  have hdigits : 0 < d.digits := by
    rw [hd]
    exact shortest_digits_pos hpos
  rw [← hd]
  by_contra hlarge
  have hleading := pow_mul_le_of_leading hdigits (Int.not_lt.1 hlarge)
  have hbound : 10 ^ n * 10 ^ (-d.exponent).toNat
      ≤ (4 * x.mantissa + 2) * 2 ^ (x.exponent - 2).toNat * 10 ^ (-d.exponent).toNat :=
    calc 10 ^ n * 10 ^ (-d.exponent).toNat ≤ d.digits * 10 ^ d.exponent.toNat := hleading
      _ ≤ d.digits * (10 ^ d.exponent.toNat * 2 ^ (2 - x.exponent).toNat) :=
        Nat.mul_le_mul_left _ (Nat.le_mul_of_pos_right _ (Nat.two_pow_pos _))
      _ ≤ _ := hend
  exact absurd (Nat.le_of_mul_le_mul_right hbound (Nat.pow_pos (by decide))) (Nat.not_le.2 h)

theorem ofSingleBits_bounds (bits : UInt32) :
    (ofSingleBits bits).mantissa < 2 ^ 24 ∧ (ofSingleBits bits).exponent ≤ 105 := by
  unfold ofSingleBits ofFields
  have hpow : Nat.pow 2 23 = 0x800000 := rfl
  split
  · constructor <;> dsimp only <;> omega
  · constructor <;> dsimp only <;> omega

/-- The singles end below the 39th power of ten. -/
theorem leading_ofSingleBits_lt {bits : UInt32} (h : 0 < (ofSingleBits bits).mantissa) :
    (ofSingleBits bits).shortest.leading < 39 := by
  obtain ⟨hmantissa, hexponent⟩ := ofSingleBits_bounds bits
  refine leading_shortest_lt (n := 39) h ?_
  calc (4 * (ofSingleBits bits).mantissa + 2) * 2 ^ ((ofSingleBits bits).exponent - 2).toNat
      ≤ 2 ^ 26 * 2 ^ 103 :=
        Nat.mul_le_mul (by omega) (Nat.pow_le_pow_right (by decide) (by omega))
    _ < 10 ^ 39 := by decide

end Magnitude

end NeighborSearch.Decimal
