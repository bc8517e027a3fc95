import NeighborSearch.Proofs.Single.Canonical
import NeighborSearch.Proofs.Single.Faithful
import NeighborSearch.Proofs.Single.Unsigned

/-!
# Values as real numbers

A finite value stands for a real number, its mantissa times a power of two. This file gives

1. that number, for unpacked values and for values;
2. its form: it has room in single precision, and is a multiple of the smallest positive number;
3. comparison: values are compared as the numbers they stand for.
-/

namespace NeighborSearch.Single

open Float.Model Float.Model.UnpackedFloat

/-- The real number that an unpacked value stands for. Infinities and what is not a number count as
zero. -/
noncomputable def real : UnpackedFloat → ℝ
  | .finite s m e _ => scaled (s.apply m) e
  | _ => 0

/-- The real number that a value stands for. -/
noncomputable def value (x : Float32) : ℝ :=
  real x.toModel.unpack

/-- A number with a sign. -/
noncomputable def signed : Sign → ℝ → ℝ
  | .positive, x => x
  | .negative, x => -x

variable {u v : UnpackedFloat} {s : Sign} {m m' : ℕ} {e e' : ℤ} {x y : Float32}

theorem apply_mul (s : Sign) (n : ℕ) (r : ℝ) : (s.apply n : ℤ) * r = signed s (n * r) := by
  cases s <;> simp [Sign.apply, signed]

theorem real_eq (s : Sign) (m : ℕ) (e : ℤ) (hm : 0 < m) :
    real (.finite s m e hm) = (s.apply m : ℤ) * 2 ^ e :=
  rfl

theorem real_finite (s : Sign) (m : ℕ) (e : ℤ) (hm : 0 < m) :
    real (.finite s m e hm) = signed s (m * 2 ^ e) :=
  apply_mul s m _

theorem real_zero (s : Sign) : real (.zero s) = 0 := rfl

theorem real_neg (u : UnpackedFloat) : real u.neg = -real u := by
  cases u with
  | finite s m e hm =>
    show real (.finite (-s) m e hm) = _
    rw [real_finite, real_finite]
    cases s
    · exact (neg_neg _).symm
    · rfl
  | _ => exact neg_zero.symm

/-! ## Form -/

theorem abs_apply (s : Sign) (n : ℕ) : |s.apply (n : ℤ)| = n := by
  cases s
  · exact (abs_neg _).trans (abs_of_nonneg (Int.natCast_nonneg n))
  · exact abs_of_nonneg (Int.natCast_nonneg n)

theorem representable_real (h : Canonical u) : Representable (real u) := by
  cases u with
  | finite s m e hm =>
    refine ⟨s.apply m, e, ?_, h.2.1, rfl⟩
    rw [abs_apply]
    exact_mod_cast Nat.le_of_lt h.1
  | _ => exact representable_zero

theorem representable_value (x : Float32) : Representable (value x) :=
  representable_real (canonical_unpack x)

/-- What has room is a multiple of the smallest positive number. -/
theorem exists_value_eq_mul (x : Float32) : ∃ k : ℤ, value x = k * leastPositive := by
  obtain ⟨m, e, _, he, hvalue⟩ := representable_value x
  refine ⟨m * 2 ^ (e + 149).toNat, ?_⟩
  have hpow : (2 : ℝ) ^ e = 2 ^ (e + 149).toNat * leastPositive := by
    rw [leastPositive, ← zpow_natCast, ← zpow_add₀ two_ne_zero]
    congr 1
    omega
  rw [hvalue, hpow]
  push_cast
  ring

/-! ## Comparison -/

section Comparison

/-- Of two canonical forms without the sign bit, the one with the smaller exponent stands for the
smaller number, as the mantissa of the other one has all its bits. -/
theorem mul_zpow_lt_mul_zpow {hpos : 0 < m} {hpos' : 0 < m'}
    (hm : Canonical (.finite s m e hpos)) (hm' : Canonical (.finite s m' e' hpos'))
    (h : e < e' ∨ e = e' ∧ m < m') :
    (m : ℝ) * 2 ^ e < m' * 2 ^ e' := by
  rcases h with he | ⟨rfl, hlt⟩
  · have hnormal : 2 ^ 23 ≤ m' := hm'.2.2.resolve_right (by have := hm.2.1; omega)
    have hm₁ : (m : ℝ) < 2 ^ 24 := by exact_mod_cast hm.1
    have hm₂ : (2 : ℝ) ^ 23 ≤ m' := by exact_mod_cast hnormal
    calc (m : ℝ) * 2 ^ e < 2 ^ 24 * 2 ^ e := by gcongr
      _ = 2 ^ 23 * 2 ^ (e + 1) := by rw [zpow_add_one₀ two_ne_zero]; ring
      _ ≤ m' * 2 ^ e' := by
        gcongr
        · exact one_le_two
        · omega
  · have hlt' : (m : ℝ) < m' := by exact_mod_cast hlt
    gcongr

theorem real_lt_of_compare (hu : Canonical u) (hv : Canonical v) (hu' : u.isFinite = true)
    (hv' : v.isFinite = true) (h : UnpackedFloat.compare u v = some .lt) : real u < real v := by
  have hmul {m : ℕ} (hm : 0 < m) (e : ℤ) : (0 : ℝ) < m * 2 ^ e :=
    mul_pos (by exact_mod_cast hm) (zpow_pos two_pos e)
  cases u with
  | notANumber => cases hu'
  | infinity s => cases hu'
  | zero s =>
    cases v with
    | notANumber => cases hv'
    | infinity t => cases hv'
    | zero t => cases h
    | finite t m' e' hm' =>
      rw [real_zero, real_finite]
      cases t
      · cases h
      · exact hmul hm' e'
  | finite s m e hm =>
    cases v with
    | notANumber => cases hv'
    | infinity t => cases hv'
    | zero t =>
      rw [real_zero, real_finite]
      cases s
      · exact neg_lt_zero.2 (hmul hm e)
      · cases h
    | finite t m' e' hm' =>
      rw [real_finite, real_finite]
      cases s <;> cases t
      · -- both are negative, and the order of their magnitudes is turned round
        have hlex : ((compare e e').then (compare m m')).swap = .lt := Option.some_inj.1 h
        rw [Ordering.swap_then, ← Std.OrientedCmp.eq_swap, ← Std.OrientedCmp.eq_swap,
          Ordering.then_eq_lt, Int.compare_eq_lt, Int.compare_eq_eq, Nat.compare_eq_lt] at hlex
        exact neg_lt_neg (mul_zpow_lt_mul_zpow hv hu hlex)
      · exact (neg_lt_zero.2 (hmul hm e)).trans (hmul hm' e')
      · cases h
      · have hlex : (compare e e').then (compare m m') = .lt := Option.some_inj.1 h
        rw [Ordering.then_eq_lt, Int.compare_eq_lt, Int.compare_eq_eq, Nat.compare_eq_lt] at hlex
        exact mul_zpow_lt_mul_zpow hu hv hlex

theorem real_eq_of_compare (h : UnpackedFloat.compare u v = some .eq) : real u = real v := by
  have hbeq : u.beq v = true := beq_iff_eq.2 h
  obtain ⟨_, _, rfl | ⟨rfl, rfl⟩ | ⟨rfl, rfl⟩⟩ := (beq_iff_ne_notANumber_and_eq u v).1 hbeq <;> rfl

theorem isSome_compare (hu : u.isFinite = true) (hv : v.isFinite = true) :
    (UnpackedFloat.compare u v).isSome = true := by
  cases u <;> cases hu <;> cases v <;> cases hv
  case zero.refl.zero.refl => rfl
  case zero.refl.finite.refl t _ _ _ => cases t <;> rfl
  case finite.refl.zero.refl s _ _ _ _ => cases s <;> rfl
  case finite.refl.finite.refl s _ _ _ t _ _ _ => cases s <;> cases t <;> rfl

/-- Finite numbers are comparable, and compared as the real numbers that they stand for. -/
theorem compare_cases (hu : Canonical u) (hv : Canonical v) (hu' : u.isFinite = true)
    (hv' : v.isFinite = true) :
    UnpackedFloat.compare u v = some .lt ∧ real u < real v
      ∨ UnpackedFloat.compare u v = some .eq ∧ real u = real v
      ∨ UnpackedFloat.compare u v = some .gt ∧ real v < real u := by
  obtain ⟨o, ho⟩ := Option.isSome_iff_exists.1 (isSome_compare hu' hv')
  cases o with
  | lt => exact .inl ⟨ho, real_lt_of_compare hu hv hu' hv' ho⟩
  | eq => exact .inr (.inl ⟨ho, real_eq_of_compare ho⟩)
  | gt =>
    have hswap : UnpackedFloat.compare v u = some .lt := by
      rw [compare_swap, ho]
      rfl
    exact .inr (.inr ⟨ho, real_lt_of_compare hv hu hv' hu' hswap⟩)

/-- Values are compared as the numbers that they stand for. -/
theorem value_cases (hx : x.isFinite = true) (hy : y.isFinite = true) :
    UnpackedFloat.compare x.toModel.unpack y.toModel.unpack = some .lt ∧ value x < value y
      ∨ UnpackedFloat.compare x.toModel.unpack y.toModel.unpack = some .eq ∧ value x = value y
      ∨ UnpackedFloat.compare x.toModel.unpack y.toModel.unpack = some .gt ∧ value y < value x :=
  compare_cases (canonical_unpack x) (canonical_unpack y) hx hy

theorem lt_iff_value (hx : x.isFinite = true) (hy : y.isFinite = true) :
    x < y ↔ value x < value y := by
  rw [lt_iff_compare]
  rcases value_cases hx hy with ⟨h, hlt⟩ | ⟨h, heq⟩ | ⟨h, hgt⟩ <;> rw [h]
  · exact iff_of_true rfl hlt
  · exact iff_of_false (by decide) heq.not_lt
  · exact iff_of_false (by decide) hgt.not_gt

theorem le_iff_value (hx : x.isFinite = true) (hy : y.isFinite = true) :
    x ≤ y ↔ value x ≤ value y := by
  rw [le_iff_compare]
  rcases value_cases hx hy with ⟨h, hlt⟩ | ⟨h, heq⟩ | ⟨h, hgt⟩ <;> rw [h]
  · exact iff_of_true rfl hlt.le
  · exact iff_of_true rfl heq.le
  · exact iff_of_false (by decide) hgt.not_ge

theorem beq_iff_value (hx : x.isFinite = true) (hy : y.isFinite = true) :
    (x == y) = true ↔ value x = value y := by
  rw [beq_iff_compare]
  rcases value_cases hx hy with ⟨h, hlt⟩ | ⟨h, heq⟩ | ⟨h, hgt⟩ <;> rw [h]
  · exact iff_of_false (by decide) hlt.ne
  · exact iff_of_true rfl heq
  · exact iff_of_false (by decide) hgt.ne'

end Comparison

/-! ## Unsigned values -/

section Unsigned

theorem value_of_bits_zero : value 0 = 0 := by
  rw [value, unpack_of_unsigned unsigned_zero]
  rfl

theorem isFinite_zero : (0 : Float32).isFinite = true := by
  decide

theorem Unsigned.value_nonneg (hx : Unsigned x) (hx' : x.isFinite = true) : 0 ≤ value x := by
  rw [← value_of_bits_zero, ← le_iff_value isFinite_zero hx']
  exact hx.nonneg

/-- Unsigned values that stand for the same number are the same. -/
theorem Unsigned.eq_of_value_eq (hx : Unsigned x) (hy : Unsigned y) (hx' : x.isFinite = true)
    (hy' : y.isFinite = true) (h : value x = value y) : x = y := by
  rw [← beq_iff_value hx' hy', beq_iff_of_unsigned hx hy, totalCompare_eq_iff] at h
  exact Float32.toBits_inj.1 h

/-- An unsigned value that is not finite is infinity. -/
theorem Unsigned.eq_infinity (hx : Unsigned x) (h : x.isFinite = false) :
    x.toModel.unpack = .infinity .positive := by
  rw [unsigned_iff] at hx
  have h' : x.toModel.unpack.isFinite = false := h
  cases hu : x.toModel.unpack with
  | notANumber => rw [hu] at hx; cases hx
  | infinity s => rw [hu] at hx; cases hx; rfl
  | zero s => rw [hu] at h'; cases h'
  | finite s m e hm => rw [hu] at h'; cases h'

end Unsigned

end NeighborSearch.Single
