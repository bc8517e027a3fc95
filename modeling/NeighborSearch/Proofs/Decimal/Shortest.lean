import NeighborSearch.Decimal.Shortest

/-!
# The shortest decimal is not zero

The interval of the decimals that round to a float lies above zero, unless the float is zero. So
whatever grid the search stops at, the point that it picks has digits.
-/

namespace NeighborSearch.Decimal.Magnitude

variable {x : Magnitude}

/-- The lower end of the interval is above zero. -/
theorem scaled_lowerQuarters_pos (h : 0 < x.mantissa) (k : Int) :
    0 < x.scaled k x.lowerQuarters := by
  have hlower : 0 < x.lowerQuarters := by
    unfold lowerQuarters
    split <;> omega
  exact Nat.mul_pos (Nat.mul_pos hlower (Nat.two_pow_pos _)) (Nat.pow_pos (by decide))

/-- A decimal that rounds to the float is not zero. -/
theorem pos_of_admits (h : 0 < x.mantissa) {k : Int} {d : Nat} (hd : x.admits k d = true) :
    0 < d := by
  have hlow := scaled_lowerQuarters_pos h k
  have hpoint : 0 < d * x.gridStep k := by
    simp only [admits] at hd
    split at hd
    · have := (of_decide_eq_true hd).1
      omega
    · have := (of_decide_eq_true hd).1
      omega
  exact Nat.pos_of_mul_pos_right hpoint

/-- The nearer one is one of the two. -/
theorem nearer_cases (x : Magnitude) (k : Int) :
    x.nearer k = x.gridFloor k ∨ x.nearer k = x.gridFloor k + 1 := by
  simp only [nearer]
  split
  · exact .inl rfl
  · exact .inr rfl
  · split
    · exact .inl rfl
    · exact .inr rfl

theorem admits_of_gridPoint? {k : Int} {d : Nat} (hd : x.gridPoint? k = some d) :
    x.admits k d = true := by
  simp only [gridPoint?] at hd
  split at hd
  · next hbelow habove =>
    obtain rfl := Option.some.inj hd
    obtain hnearer | hnearer := nearer_cases x k
    · rw [hnearer]; exact hbelow
    · rw [hnearer]; exact habove
  · next hbelow _ =>
    obtain rfl := Option.some.inj hd
    exact hbelow
  · next _ habove =>
    obtain rfl := Option.some.inj hd
    exact habove
  · cases hd

/-- On the finest grid a step is no longer than the value. -/
theorem gridStep_finestGrid_le (h : 0 < x.mantissa) :
    x.gridStep x.finestGrid ≤ x.scaled x.finestGrid (4 * x.mantissa) := by
  have hgrid : x.finestGrid.toNat = 0 := by
    unfold finestGrid
    omega
  have hexponent : (2 - x.exponent).toNat ≤ 2 + (-x.finestGrid).toNat := by
    unfold finestGrid
    omega
  calc x.gridStep x.finestGrid
      = 2 ^ (2 - x.exponent).toNat := by simp [gridStep, hgrid]
    _ ≤ 2 ^ (2 + (-x.finestGrid).toNat) := Nat.pow_le_pow_right (by decide) hexponent
    _ = 4 * 2 ^ (-x.finestGrid).toNat := Nat.pow_add 2 2 _
    _ ≤ 4 * 10 ^ (-x.finestGrid).toNat :=
      Nat.mul_le_mul_left 4 (Nat.pow_le_pow_left (by decide) _)
    _ ≤ 4 * x.mantissa * 2 ^ (x.exponent - 2).toNat * 10 ^ (-x.finestGrid).toNat := by
      refine Nat.mul_le_mul_right _ ?_
      have hpow : 0 < 2 ^ (x.exponent - 2).toNat := Nat.pow_pos (by decide)
      calc 4 ≤ 4 * x.mantissa := by omega
        _ ≤ 4 * x.mantissa * 2 ^ (x.exponent - 2).toNat := Nat.le_mul_of_pos_right _ hpow

theorem searchGrids_digits_pos (h : 0 < x.mantissa) (steps : Nat) :
    0 < (x.searchGrids steps).digits := by
  induction steps with
  | zero =>
    exact Nat.div_pos (gridStep_finestGrid_le h)
      (Nat.mul_pos (Nat.pow_pos (by decide)) (Nat.two_pow_pos _))
  | succ steps ih =>
    simp only [searchGrids]
    cases hpoint : x.gridPoint? (x.finestGrid + (steps + 1 : Nat)) with
    | some d => exact pos_of_admits h (admits_of_gridPoint? hpoint)
    | none => exact ih

/-- The shortest decimal of a float that is not zero has digits. -/
theorem shortest_digits_pos (h : 0 < x.mantissa) : 0 < x.shortest.digits :=
  searchGrids_digits_pos h _

end NeighborSearch.Decimal.Magnitude
