import NeighborSearch.Proofs.Single.Accumulation

/-!
# Infinities

Results that overflow are infinities, and operations go on with them. This file says

1. when an operation gives a number, infinities counted, and when it gives none;
2. that sums of numbers that are not above zero are not above zero, nor are their quotients by what
   is above zero.
-/

namespace NeighborSearch.Single

open Float.Model Float.Model.UnpackedFloat

variable {x y : Float32} {terms : List Float32} {t : ℝ} {s : Sign}

/-! ## Numbers -/

section Numbers

theorem isNaN_eq_false_iff : x.isNaN = false ↔ x.toModel.unpack ≠ .notANumber := by
  show x.toModel.unpack.isNaN = false ↔ _
  cases x.toModel.unpack <;> simp [UnpackedFloat.isNaN]

theorem isNaN_of_isFinite (hx : x.isFinite = true) : x.isNaN = false := by
  rw [isNaN_eq_false_iff]
  intro h
  have h' : x.toModel.unpack.isFinite = true := hx
  rw [h] at h'
  cases h'

theorem exists_unpack_eq_infinity (hx : x.isFinite = false) (hx' : x.isNaN = false) :
    ∃ s, x.toModel.unpack = .infinity s := by
  rw [isNaN_eq_false_iff] at hx'
  have h : x.toModel.unpack.isFinite = false := hx
  cases hu : x.toModel.unpack with
  | notANumber => exact absurd hu hx'
  | infinity s => exact ⟨s, rfl⟩
  | zero s => rw [hu] at h; cases h
  | finite s m e hm => rw [hu] at h; cases h

theorem isNaN_add (hx : x.isNaN = false) (hy : y.isFinite = true) : (x + y).isNaN = false := by
  by_cases hx' : x.isFinite = true
  · exact (roundsTo_add hx' hy).isNaN
  · obtain ⟨s, hs⟩ := exists_unpack_eq_infinity (Bool.eq_false_of_not_eq_true hx') hx
    have hy' : y.toModel.unpack.isFinite = true := hy
    have hadd : UnpackedFloat.add .binary32 x.toModel.unpack y.toModel.unpack = .infinity s := by
      rw [hs]
      cases hu : y.toModel.unpack <;> rw [hu] at hy' <;> first | rfl | cases hy'
    have hresult : (x + y).toModel.unpack = .infinity s := unpack_result hadd trivial
    rw [isNaN_eq_false_iff, hresult]
    exact nofun

/-- A sum of finite values may overflow, but it is a number. -/
theorem isNaN_sum (h : ∀ x ∈ terms, x.isFinite = true) : (sum terms).isNaN = false := by
  have hfold (x : Float32) (hx : x.isNaN = false) : (terms.foldl (· + ·) x).isNaN = false := by
    induction terms generalizing x with
    | nil => exact hx
    | cons y rest ih =>
      rw [List.forall_mem_cons] at h
      exact ih h.2 _ (isNaN_add hx h.1)
  exact hfold _ (by decide)

/-- What is above zero is infinity or a finite number without the sign bit. -/
theorem unpack_of_pos (hx : 0 < x) :
    x.toModel.unpack = .infinity .positive
      ∨ ∃ m e hm, x.toModel.unpack = .finite .positive m e hm := by
  have hsign := unsigned_iff.1 (unsigned_of_pos hx)
  rw [lt_iff_compare] at hx
  cases hu : x.toModel.unpack with
  | notANumber => rw [hu] at hsign; cases hsign
  | infinity s => rw [hu] at hsign; cases hsign; exact .inl rfl
  | zero s => rw [hu] at hx; cases hx
  | finite s m e hm => rw [hu] at hsign; cases hsign; exact .inr ⟨m, e, hm, rfl⟩

theorem value_pos (hx : 0 < x) (hx' : x.isFinite = true) : 0 < value x := by
  rw [← value_of_bits_zero, ← lt_iff_value isFinite_zero hx']
  exact hx

/-- A product of what is above zero has no sign, and is infinite if one of the factors is. -/
theorem unsigned_mul_of_pos (hx : 0 < x) (hy : 0 < y) : Unsigned (x * y) := by
  refine unsigned_ofModel_pack ?_
  rcases unpack_of_pos hx with hu | ⟨m, e, hm, hu⟩ <;>
    rcases unpack_of_pos hy with hv | ⟨m', e', hm', hv⟩ <;> rw [hu, hv]
  · rfl
  · rfl
  · rfl
  · exact sign?_roundWithAccuracy _ _ _

theorem isFinite_of_mul (hx : 0 < x) (hy : 0 < y) (h : (x * y).isFinite = true) :
    x.isFinite = true ∧ y.isFinite = true := by
  have h' : (x * y).toModel.unpack.isFinite = true := h
  have hinfinite (s : Sign) (hmul : UnpackedFloat.mul .binary32 x.toModel.unpack y.toModel.unpack
      = .infinity s) : False := by
    have hresult : (x * y).toModel.unpack = .infinity s := unpack_result hmul trivial
    rw [hresult] at h'
    cases h'
  show x.toModel.unpack.isFinite = true ∧ y.toModel.unpack.isFinite = true
  rcases unpack_of_pos hx with hu | ⟨m, e, hm, hu⟩ <;>
    rcases unpack_of_pos hy with hv | ⟨m', e', hm', hv⟩ <;> rw [hu, hv] at hinfinite ⊢
  · exact absurd rfl (hinfinite .positive)
  · exact absurd rfl (hinfinite .positive)
  · exact absurd rfl (hinfinite .positive)
  · exact ⟨rfl, rfl⟩

/-- A number divided by a finite value above zero is a number. -/
theorem isNaN_div (hx : x.isNaN = false) (hy : 0 < y) (hy' : y.isFinite = true) :
    (x / y).isNaN = false := by
  by_cases hx' : x.isFinite = true
  · exact (roundsTo_div hx' hy' (value_pos hy hy').ne').isNaN
  · obtain ⟨s, hs⟩ := exists_unpack_eq_infinity (Bool.eq_false_of_not_eq_true hx') hx
    rcases unpack_of_pos hy with hv | ⟨m, e, hm, hv⟩
    · have h : y.toModel.unpack.isFinite = true := hy'
      rw [hv] at h
      cases h
    · have hdiv : UnpackedFloat.div .binary32 x.toModel.unpack y.toModel.unpack
          = .infinity (s / .positive) := by
        rw [hs, hv]
        rfl
      have hresult : (x / y).toModel.unpack = .infinity (s / .positive) :=
        unpack_result hdiv trivial
      rw [isNaN_eq_false_iff, hresult]
      exact nofun

/-- A finite value divided by infinity is zero, and nothing else is a number then. -/
theorem unpack_div_infinity (hy : y.toModel.unpack = .infinity .positive) :
    x.isFinite = true ∧ (∃ s, (x / y).toModel.unpack = .zero s)
      ∨ x.isFinite = false ∧ (x / y).toModel.unpack = .notANumber := by
  have hresult (u : UnpackedFloat) (hu : Canonical u)
      (h : UnpackedFloat.div .binary32 x.toModel.unpack (.infinity .positive) = u) :
      (x / y).toModel.unpack = clip u :=
    unpack_result (by rw [hy, h]) hu
  show x.toModel.unpack.isFinite = true ∧ _ ∨ x.toModel.unpack.isFinite = false ∧ _
  cases hx : x.toModel.unpack <;> rw [hx] at hresult
  case notANumber => exact .inr ⟨rfl, hresult .notANumber trivial rfl⟩
  case infinity s => exact .inr ⟨rfl, hresult .notANumber trivial rfl⟩
  case zero s => exact .inl ⟨rfl, _, hresult (.zero (s / .positive)) trivial rfl⟩
  case finite s m e hm => exact .inl ⟨rfl, _, hresult (.zero (s / .positive)) trivial rfl⟩

theorem isNaN_div_infinity (hy : y.toModel.unpack = .infinity .positive) :
    (x / y).isNaN = !x.isFinite := by
  show (x / y).toModel.unpack.isNaN = !x.isFinite
  rcases unpack_div_infinity (x := x) hy with ⟨hx, s, hresult⟩ | ⟨hx, hresult⟩ <;>
    rw [hx, hresult] <;> rfl

end Numbers

/-! ## Numbers that are not above zero -/

section Nonpositive

/-- A number that is not above zero, unpacked. -/
def Nonpositive : UnpackedFloat → Prop
  | .notANumber => False
  | .infinity s => s = .negative
  | .zero _ => True
  | .finite s _ _ _ => s = .negative

variable {u v : UnpackedFloat}

theorem le_zero_iff : x ≤ 0 ↔ Nonpositive x.toModel.unpack := by
  have hzero : (0 : Float32).toModel.unpack = .zero .positive := by
    rw [unpack_of_unsigned unsigned_zero]
    rfl
  rw [le_iff_compare, hzero]
  cases x.toModel.unpack with
  | notANumber => exact iff_of_false (by decide) id
  | infinity s => cases s <;> simp [UnpackedFloat.compare, Nonpositive]
  | zero s => exact iff_of_true rfl trivial
  | finite s m e hm => cases s <;> simp [UnpackedFloat.compare, Nonpositive]

theorem nonpositive_clip (hu : Nonpositive u) : Nonpositive (clip u) := by
  cases u with
  | finite s m e hm =>
    rw [clip]
    split_ifs <;> exact hu
  | _ => exact hu

theorem nonpositive_of_rounds (h : Rounds t u) (ht : t ≤ 0) : Nonpositive u := by
  have hreal := h.faithful.le_of_le 0 representable_zero ht
  have hfinite := h.isFinite
  cases u with
  | notANumber => cases hfinite
  | infinity s => cases hfinite
  | zero s => trivial
  | finite s m e hm =>
    cases s with
    | negative => rfl
    | positive =>
      have hpos : (0 : ℝ) < m * 2 ^ e := mul_pos (by exact_mod_cast hm) (zpow_pos two_pos e)
      rw [real_finite] at hreal
      exact absurd hreal (not_le.2 hpos)

theorem RoundsTo.le_zero (h : RoundsTo t x) (ht : t ≤ 0) : x ≤ 0 := by
  obtain ⟨u, hu, hunpack⟩ := h
  rw [le_zero_iff, hunpack]
  exact nonpositive_clip (nonpositive_of_rounds hu ht)

theorem value_nonpos (hx : x ≤ 0) (hx' : x.isFinite = true) : value x ≤ 0 := by
  rw [← value_of_bits_zero, ← le_iff_value hx' isFinite_zero]
  exact hx

theorem isNaN_of_le_zero (hx : x ≤ 0) : x.isNaN = false := by
  rw [isNaN_eq_false_iff]
  intro h
  rw [le_zero_iff, h] at hx
  exact hx

/-- What is infinite and not above zero. -/
theorem unpack_of_le_zero (hx : x ≤ 0) (hx' : x.isFinite = false) :
    x.toModel.unpack = .infinity .negative := by
  obtain ⟨s, hs⟩ := exists_unpack_eq_infinity hx' (isNaN_of_le_zero hx)
  rw [le_zero_iff, hs] at hx
  rw [hs, show s = .negative from hx]

theorem add_le_zero (hx : x ≤ 0) (hy : y ≤ 0) : x + y ≤ 0 := by
  have hinfinite (h : UnpackedFloat.add .binary32 x.toModel.unpack y.toModel.unpack
      = .infinity .negative) : x + y ≤ 0 := by
    have hresult : (x + y).toModel.unpack = .infinity .negative := unpack_result h trivial
    rw [le_zero_iff, hresult]
    rfl
  by_cases hx' : x.isFinite = true
  · by_cases hy' : y.isFinite = true
    · exact (roundsTo_add hx' hy').le_zero (add_nonpos (value_nonpos hx hx') (value_nonpos hy hy'))
    · refine hinfinite ?_
      rw [unpack_of_le_zero hy (Bool.eq_false_of_not_eq_true hy')]
      have h : x.toModel.unpack.isFinite = true := hx'
      cases hu : x.toModel.unpack <;> rw [hu] at h <;> first | rfl | cases h
  · refine hinfinite ?_
    rw [unpack_of_le_zero hx (Bool.eq_false_of_not_eq_true hx')]
    rw [le_zero_iff] at hy
    cases hu : y.toModel.unpack <;> rw [hu] at hy
    case notANumber => exact hy.elim
    case infinity s => rw [show s = .negative from hy]; rfl
    case zero => rfl
    case finite => rfl

theorem sum_le_zero (h : ∀ x ∈ terms, x ≤ 0) : sum terms ≤ 0 := by
  have hfold (x : Float32) (hx : x ≤ 0) : terms.foldl (· + ·) x ≤ 0 := by
    induction terms generalizing x with
    | nil => exact hx
    | cons y rest ih =>
      rw [List.forall_mem_cons] at h
      exact ih h.2 _ (add_le_zero hx h.1)
  exact hfold _ (by decide)

theorem div_le_zero (hx : x ≤ 0) (hy : 0 < y) (h : (x / y).isNaN = false) : x / y ≤ 0 := by
  rcases unpack_of_pos hy with hv | ⟨m, e, hm, hv⟩
  · rcases unpack_div_infinity (x := x) hv with ⟨_, s, hresult⟩ | ⟨_, hresult⟩
    · rw [le_zero_iff, hresult]
      trivial
    · exact absurd hresult (isNaN_eq_false_iff.1 h)
  · have hy' : y.toModel.unpack.isFinite = true := by
      rw [hv]
      rfl
    have hpos := value_pos hy hy'
    by_cases hx' : x.isFinite = true
    · exact (roundsTo_div hx' hy' hpos.ne').le_zero
        (div_nonpos_of_nonpos_of_nonneg (value_nonpos hx hx') hpos.le)
    · have hdiv : UnpackedFloat.div .binary32 x.toModel.unpack y.toModel.unpack
          = .infinity .negative := by
        rw [unpack_of_le_zero hx (Bool.eq_false_of_not_eq_true hx'), hv]
        rfl
      have hresult : (x / y).toModel.unpack = .infinity .negative := unpack_result hdiv trivial
      rw [le_zero_iff, hresult]
      rfl

end Nonpositive

end NeighborSearch.Single
