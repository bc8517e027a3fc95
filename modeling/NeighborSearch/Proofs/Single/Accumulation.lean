import NeighborSearch.Proofs.Single.Arithmetic

/-!
# Errors of sums

A sum from left to right rounds once for each term. Where no term is negative the errors add up to
at most one factor for each term, in both directions, and underflow adds nothing to them: a sum that
is too small to be rounded is exact. This file gives

1. what a finite sum says of its terms, and when a sum is finite;
2. the computed sum between two multiples of the exact one.
-/

namespace NeighborSearch.Single

open Float.Model Float.Model.UnpackedFloat

variable {x y : Float32} {terms : List Float32} {n : ℕ}

/-! ## Finite sums -/

section Finite

/-- An infinity among unsigned values is not lost. -/
theorem Unsigned.isFinite_of_add (hx : Unsigned x) (hy : Unsigned y)
    (h : (x + y).isFinite = true) : x.isFinite = true ∧ y.isFinite = true := by
  by_contra hinfinite
  rw [not_and_or, Bool.not_eq_true, Bool.not_eq_true] at hinfinite
  have hsum : UnpackedFloat.add .binary32 x.toModel.unpack y.toModel.unpack
      = .infinity .positive := by
    have hx' := unsigned_iff.1 hx
    have hy' := unsigned_iff.1 hy
    rcases hinfinite with hx₀ | hy₀
    · rw [hx.eq_infinity hx₀]
      cases hu : y.toModel.unpack <;> rw [hu] at hy' <;> cases hy' <;> rfl
    · rw [hy.eq_infinity hy₀]
      cases hu : x.toModel.unpack <;> rw [hu] at hx' <;> cases hx' <;> rfl
  have h' : (x + y).toModel.unpack.isFinite = true := h
  have hresult : (x + y).toModel.unpack = .infinity .positive := unpack_result hsum trivial
  rw [hresult] at h'
  cases h'

theorem Unsigned.isFinite_of_foldl (hx : Unsigned x) (hterms : ∀ y ∈ terms, Unsigned y)
    (h : (terms.foldl (· + ·) x).isFinite = true) :
    x.isFinite = true ∧ ∀ y ∈ terms, y.isFinite = true := by
  induction terms generalizing x with
  | nil => exact ⟨h, nofun⟩
  | cons y rest ih =>
    rw [List.forall_mem_cons] at hterms ⊢
    obtain ⟨hsum, hrest⟩ := ih (hx.add hterms.1) hterms.2 h
    obtain ⟨hx', hy'⟩ := hx.isFinite_of_add hterms.1 hsum
    exact ⟨hx', hy', hrest⟩

theorem Unsigned.isFinite_of_sqrt (hx : Unsigned x) (h : x.sqrt.isFinite = true) :
    x.isFinite = true := by
  by_contra hx'
  rw [Bool.not_eq_true] at hx'
  have hsqrt : UnpackedFloat.sqrt .binary32 x.toModel.unpack = .infinity .positive := by
    rw [hx.eq_infinity hx']
    rfl
  have hresult : x.sqrt.toModel.unpack = .infinity .positive := unpack_result hsqrt trivial
  have h' : x.sqrt.toModel.unpack.isFinite = true := h
  rw [hresult] at h'
  cases h'

end Finite

/-! ## Errors -/

section Errors

/-- The exact sum of terms. -/
noncomputable def exactSum (terms : List Float32) : ℝ :=
  (terms.map value).sum

theorem exactSum_cons (x : Float32) (rest : List Float32) :
    exactSum (x :: rest) = value x + exactSum rest :=
  List.sum_cons

theorem exactSum_nonneg (hterms : ∀ x ∈ terms, Unsigned x)
    (hfinite : ∀ x ∈ terms, x.isFinite = true) : 0 ≤ exactSum terms := by
  refine List.sum_nonneg ?_
  intro v hv
  obtain ⟨x, hx, rfl⟩ := List.mem_map.1 hv
  exact (hterms x hx).value_nonneg (hfinite x hx)

theorem unitRoundoff_pos : 0 < unitRoundoff :=
  zpow_pos two_pos _

theorem unitRoundoff_lt_one : unitRoundoff < 1 := by
  unfold unitRoundoff
  norm_num

/-- One addition has no error but a relative one. -/
theorem value_add_bounds (hx : Unsigned x) (hy : Unsigned y) (h : (x + y).isFinite = true) :
    (1 - unitRoundoff) * (value x + value y) ≤ value (x + y)
      ∧ value (x + y) ≤ (1 + unitRoundoff) * (value x + value y) := by
  obtain ⟨hx', hy'⟩ := hx.isFinite_of_add hy h
  obtain ⟨k, hk⟩ := exists_value_eq_mul x
  obtain ⟨l, hl⟩ := exists_value_eq_mul y
  have hmultiple : value x + value y = ((k + l : ℤ) : ℝ) * leastPositive := by
    rw [hk, hl]
    push_cast
    ring
  have herror := ((roundsTo_add hx' hy').faithful h).error_of_multiple hmultiple
  have hsum : 0 ≤ value x + value y := add_nonneg (hx.value_nonneg hx') (hy.value_nonneg hy')
  rw [abs_of_nonneg hsum, abs_le] at herror
  constructor <;> linarith

/-- A sum that has been going on stays between the multiples of the exact one. -/
theorem foldl_add_bounds (hx : Unsigned x) (hterms : ∀ y ∈ terms, Unsigned y)
    (h : (terms.foldl (· + ·) x).isFinite = true) :
    (1 - unitRoundoff) ^ terms.length * (value x + exactSum terms)
        ≤ value (terms.foldl (· + ·) x)
      ∧ value (terms.foldl (· + ·) x)
        ≤ (1 + unitRoundoff) ^ terms.length * (value x + exactSum terms) := by
  have hu := unitRoundoff_pos
  have hu' := unitRoundoff_lt_one
  induction terms generalizing x with
  | nil => simp [exactSum]
  | cons y rest ih =>
    have hterms' := List.forall_mem_cons.1 hterms
    obtain ⟨hsum, hrest⟩ := (hx.add hterms'.1).isFinite_of_foldl hterms'.2 h
    obtain ⟨hlower, hupper⟩ := ih (hx.add hterms'.1) hterms'.2 h
    obtain ⟨hadd, hadd'⟩ := value_add_bounds hx hterms'.1 hsum
    have htail : 0 ≤ exactSum rest := exactSum_nonneg hterms'.2 hrest
    rw [List.length_cons, List.foldl_cons, exactSum_cons, pow_succ, pow_succ]
    -- the factor of the first addition is put on the terms that follow too, as none is negative
    constructor
    · refine le_trans ?_ hlower
      rw [mul_assoc]
      gcongr
      nlinarith
    · refine hupper.trans ?_
      rw [mul_assoc]
      gcongr
      nlinarith

/-- A sum is finite if the exact one is, with room for the errors. -/
theorem isFinite_foldl_add (hx : Unsigned x) (hx' : x.isFinite = true)
    (hterms : ∀ y ∈ terms, Unsigned y) (hfinite : ∀ y ∈ terms, y.isFinite = true)
    (h : (1 + unitRoundoff) ^ terms.length * (value x + exactSum terms) ≤ largest) :
    (terms.foldl (· + ·) x).isFinite = true := by
  have hu := unitRoundoff_pos
  induction terms generalizing x with
  | nil => exact hx'
  | cons y rest ih =>
    rw [List.forall_mem_cons] at hterms hfinite
    rw [List.length_cons, exactSum_cons, pow_succ, mul_assoc] at h
    have htail : 0 ≤ exactSum rest := exactSum_nonneg hterms.2 hfinite.2
    have hhead : 0 ≤ value x + value y :=
      add_nonneg (hx.value_nonneg hx') (hterms.1.value_nonneg hfinite.1)
    have hfactor : 1 ≤ (1 + unitRoundoff) ^ rest.length := one_le_pow₀ (by linarith)
    have hsum : (x + y).isFinite = true := by
      -- what is added so far is no more than the whole with its errors
      refine (roundsTo_add hx' hfinite.1).isFinite_of_le ?_
      rw [abs_of_nonneg hhead]
      calc value x + value y ≤ (1 + unitRoundoff) * (value x + (value y + exactSum rest)) := by
            nlinarith
        _ ≤ (1 + unitRoundoff) ^ rest.length
              * ((1 + unitRoundoff) * (value x + (value y + exactSum rest))) :=
            le_mul_of_one_le_left (by nlinarith) hfactor
        _ ≤ largest := h
    refine ih (hx.add hterms.1) hsum hterms.2 hfinite.2 (le_trans ?_ h)
    have hadd := (value_add_bounds hx hterms.1 hsum).2
    gcongr
    nlinarith

/-- The first term takes the place of the zero that a sum starts from. -/
theorem value_negativeZero_add (hx : x.isFinite = true) :
    (negativeZero + x).isFinite = true ∧ value (negativeZero + x) = value x := by
  have hzero : value negativeZero = 0 := rfl
  have h := roundsTo_add (y := negativeZero) (by decide) hx
  rw [hzero, zero_add] at h
  exact h.exact (representable_value x) ((abs_value_le_largest x).trans_lt largest_lt)

theorem Unsigned.isFinite_of_negativeZero_add (hx : Unsigned x)
    (h : (negativeZero + x).isFinite = true) : x.isFinite = true := by
  by_contra hx'
  rw [Bool.not_eq_true] at hx'
  have hadd : UnpackedFloat.add .binary32 (.zero .negative) x.toModel.unpack
      = .infinity .positive := by
    rw [hx.eq_infinity hx']
    rfl
  have hresult : (negativeZero + x).toModel.unpack = .infinity .positive :=
    unpack_result hadd trivial
  have h' : (negativeZero + x).toModel.unpack.isFinite = true := h
  rw [hresult] at h'
  cases h'

theorem isFinite_of_sum (hterms : ∀ y ∈ terms, Unsigned y) (h : (sum terms).isFinite = true) :
    ∀ y ∈ terms, y.isFinite = true := by
  cases terms with
  | nil => exact nofun
  | cons x rest =>
    rw [List.forall_mem_cons] at hterms ⊢
    obtain ⟨hhead, hrest⟩ := hterms.1.negativeZero_add.isFinite_of_foldl hterms.2 h
    exact ⟨hterms.1.isFinite_of_negativeZero_add hhead, hrest⟩

/-- The computed sum is between the exact one with the errors of all terms taken off and with them
put on. -/
theorem sum_bounds (hterms : ∀ y ∈ terms, Unsigned y) (h : (sum terms).isFinite = true) :
    (1 - unitRoundoff) ^ terms.length * exactSum terms ≤ value (sum terms)
      ∧ value (sum terms) ≤ (1 + unitRoundoff) ^ terms.length * exactSum terms := by
  have hfinite := isFinite_of_sum hterms h
  have hnonneg := exactSum_nonneg hterms hfinite
  cases terms with
  | nil =>
    have hzero : value (sum []) = 0 := rfl
    rw [hzero]
    simp [exactSum]
  | cons x rest =>
    rw [List.forall_mem_cons] at hterms hfinite
    obtain ⟨hlower, hupper⟩ := foldl_add_bounds hterms.1.negativeZero_add hterms.2 h
    rw [(value_negativeZero_add hfinite.1).2, ← exactSum_cons] at hlower hupper
    have hu := unitRoundoff_pos
    have hu' := unitRoundoff_lt_one
    constructor
    · refine le_trans ?_ hlower
      have hpow : (1 - unitRoundoff) ^ (x :: rest).length ≤ (1 - unitRoundoff) ^ rest.length :=
        pow_le_pow_of_le_one (by linarith) (by linarith) (Nat.le_succ _)
      gcongr
    · refine hupper.trans ?_
      have hpow : (1 + unitRoundoff) ^ rest.length ≤ (1 + unitRoundoff) ^ (x :: rest).length :=
        pow_le_pow_right₀ (by linarith) (Nat.le_succ _)
      gcongr

theorem isFinite_sum (hterms : ∀ y ∈ terms, Unsigned y) (hfinite : ∀ y ∈ terms, y.isFinite = true)
    (h : (1 + unitRoundoff) ^ terms.length * exactSum terms ≤ largest) :
    (sum terms).isFinite = true := by
  have hnonneg := exactSum_nonneg hterms hfinite
  cases terms with
  | nil => decide
  | cons x rest =>
    rw [List.forall_mem_cons] at hterms hfinite
    obtain ⟨hfirst, hvalue⟩ := value_negativeZero_add hfinite.1
    show (rest.foldl (· + ·) (negativeZero + x)).isFinite = true
    refine isFinite_foldl_add hterms.1.negativeZero_add hfirst hterms.2 hfinite.2 (le_trans ?_ h)
    rw [hvalue, ← exactSum_cons]
    have hu := unitRoundoff_pos
    have hpow : (1 + unitRoundoff) ^ rest.length ≤ (1 + unitRoundoff) ^ (x :: rest).length :=
      pow_le_pow_right₀ (by linarith) (Nat.le_succ _)
    gcongr

theorem one_sub_le_pow {u : ℝ} (h : u ≤ 1) : 1 - n * u ≤ (1 - u) ^ n := by
  have := one_add_mul_le_pow (a := -u) (by linarith) n
  rw [← sub_eq_add_neg] at this
  linarith

/-- Few errors add up to little more than their number. -/
theorem one_add_pow_le {u : ℝ} (hu : 0 ≤ u) (h : n * u ≤ 1 / 2) :
    (1 + u) ^ n ≤ 1 + 2 * (n * u) := by
  have hu' : u ≤ 1 / 2 ∨ n = 0 := by
    rcases Nat.eq_zero_or_pos n with hn | hn
    · exact .inr hn
    · have : (1 : ℝ) ≤ n := by exact_mod_cast hn
      exact .inl (by nlinarith)
  rcases hu' with hu' | rfl
  · have hlower : 1 - n * u ≤ (1 - u) ^ n := one_sub_le_pow (by linarith)
    have hproduct : (1 + u) ^ n * (1 - u) ^ n ≤ 1 := by
      rw [← mul_pow]
      exact pow_le_one₀ (by nlinarith) (by nlinarith)
    have hpos : 0 ≤ (1 + u) ^ n := by positivity
    have hnu : 0 ≤ n * u := by positivity
    refine le_of_mul_le_mul_right ?_ (show 0 < 1 - n * u by linarith)
    calc (1 + u) ^ n * (1 - n * u) ≤ (1 + u) ^ n * (1 - u) ^ n := by gcongr
      _ ≤ 1 := hproduct
      _ ≤ (1 + 2 * (n * u)) * (1 - n * u) := by nlinarith
  · simp

end Errors

end NeighborSearch.Single
