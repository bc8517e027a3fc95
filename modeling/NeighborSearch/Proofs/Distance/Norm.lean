import NeighborSearch.Distance
import NeighborSearch.Proofs.Single.Accumulation

/-!
# Norms

The norm of a vector is computed from rounded squares by a rounded sum. This file compares it with
the exact Euclidean norm:

1. the squares, which may underflow where the components are small;
2. their sum, which is near the exact one unless it overflows;
3. the norm of a vector that is not too long: when it is finite, and on which side of the threshold.
-/

namespace NeighborSearch

open Single (Unsigned value RoundsTo Faithful unitRoundoff leastPositive exactSum largest)

variable {a : List Float32} {x : Float32} {n : ℕ}

/-- The exact sum of the squares of the components. -/
noncomputable def exactSquares (a : List Float32) : ℝ :=
  (a.map fun x => value x ^ 2).sum

/-- The exact Euclidean norm. -/
noncomputable def exactNorm (a : List Float32) : ℝ :=
  √(exactSquares a)

theorem exactSquares_cons (x : Float32) (a : List Float32) :
    exactSquares (x :: a) = value x ^ 2 + exactSquares a :=
  List.sum_cons

theorem exactSquares_nonneg (a : List Float32) : 0 ≤ exactSquares a := by
  refine List.sum_nonneg ?_
  intro v hv
  obtain ⟨x, _, rfl⟩ := List.mem_map.1 hv
  exact sq_nonneg _

theorem exactNorm_nonneg (a : List Float32) : 0 ≤ exactNorm a :=
  Real.sqrt_nonneg _

theorem exactNorm_sq (a : List Float32) : exactNorm a ^ 2 = exactSquares a :=
  Real.sq_sqrt (exactSquares_nonneg a)

theorem exactSquares_le {t : ℝ} (h : exactNorm a ≤ t) : exactSquares a ≤ t ^ 2 := by
  have hnonneg := exactNorm_nonneg a
  rw [← exactNorm_sq]
  gcongr

/-- No component is larger than the norm. -/
theorem sq_value_le (h : x ∈ a) : value x ^ 2 ≤ exactSquares a := by
  refine List.single_le_sum ?_ _ (List.mem_map_of_mem h)
  intro v hv
  obtain ⟨x, _, rfl⟩ := List.mem_map.1 hv
  exact sq_nonneg _

/-! ## Squares -/

theorem dotProduct_self (a : List Float32) :
    dotProduct a a = Single.sum (a.map fun x => x * x) := by
  rw [dotProduct, List.zipWith_self]

theorem unsigned_mul_self (hx : x.isFinite = true) : Unsigned (x * x) := by
  refine Single.unsigned_ofModel_pack (Single.sign?_mul_self ?_)
  have h : x.toModel.unpack.isFinite = true := hx
  cases hu : x.toModel.unpack <;> rw [hu] at h <;> first | rfl | cases h

theorem abs_value_mul_self_sub_le (hx : x.isFinite = true) (h : (x * x).isFinite = true) :
    |value (x * x) - value x ^ 2| ≤ unitRoundoff * value x ^ 2 + leastPositive := by
  have herror := ((Single.roundsTo_mul hx hx).faithful h).error
  rwa [← pow_two, abs_of_nonneg (sq_nonneg (value x))] at herror

/-- The rounded squares add up to nearly the exact ones. -/
theorem exactSum_squares_bounds (hfinite : ∀ x ∈ a, x.isFinite = true)
    (h : ∀ x ∈ a, (x * x).isFinite = true) :
    |exactSum (a.map fun x => x * x) - exactSquares a|
      ≤ unitRoundoff * exactSquares a + a.length * leastPositive := by
  induction a with
  | nil => simp [exactSum, exactSquares]
  | cons x rest ih =>
    rw [List.forall_mem_cons] at hfinite h
    have hhead := abs_value_mul_self_sub_le hfinite.1 h.1
    have htail := ih hfinite.2 h.2
    rw [List.map_cons, Single.exactSum_cons, exactSquares_cons, List.length_cons]
    rw [abs_le] at *
    push_cast
    constructor <;> linarith

/-! ## Sums of squares -/

section Lengths

theorem length_mul_leastPositive_nonneg (n : ℕ) : 0 ≤ n * leastPositive :=
  mul_nonneg (Nat.cast_nonneg n) (zpow_pos two_pos _).le

/-- What underflow can add to the sum of squares of a vector of any length in use. -/
theorem length_mul_leastPositive_le (h : n ≤ 2 ^ 22) : n * leastPositive ≤ 2 ^ (-127 : ℤ) := by
  have hn : (n : ℝ) ≤ 2 ^ 22 := by exact_mod_cast h
  calc n * leastPositive ≤ 2 ^ 22 * 2 ^ (-149 : ℤ) := by
        unfold leastPositive
        gcongr
    _ = 2 ^ (-127 : ℤ) := by norm_num

theorem length_mul_unitRoundoff_le (h : n ≤ 1024) : n * unitRoundoff ≤ 2 ^ (-13 : ℤ) := by
  have hn : (n : ℝ) ≤ 1024 := by exact_mod_cast h
  calc n * unitRoundoff ≤ 1024 * 2 ^ (-23 : ℤ) := by
        unfold unitRoundoff
        gcongr
    _ = 2 ^ (-13 : ℤ) := by norm_num

theorem one_add_unitRoundoff_pow_le (h : n ≤ 1024) :
    (1 + unitRoundoff) ^ n ≤ 1 + 2 ^ (-12 : ℤ) := by
  have herrors := length_mul_unitRoundoff_le h
  refine (Single.one_add_pow_le Single.unitRoundoff_pos.le (herrors.trans (by norm_num))).trans ?_
  norm_num at herrors ⊢
  linarith

end Lengths

section Sums

variable (hfinite : ∀ x ∈ a, x.isFinite = true)

include hfinite

theorem unsigned_squares : ∀ y ∈ a.map fun x => x * x, Unsigned y := by
  intro y hy
  obtain ⟨x, hx, rfl⟩ := List.mem_map.1 hy
  exact unsigned_mul_self (hfinite x hx)

theorem isFinite_mul_self_of_dotProduct (h : (dotProduct a a).isFinite = true) :
    ∀ x ∈ a, (x * x).isFinite = true := by
  rw [dotProduct_self] at h
  have hsquares := Single.isFinite_of_sum (unsigned_squares hfinite) h
  exact fun x hx => hsquares _ (List.mem_map_of_mem hx)

theorem exactSum_squares_nonneg (h : ∀ x ∈ a, (x * x).isFinite = true) :
    0 ≤ exactSum (a.map fun x => x * x) :=
  Single.exactSum_nonneg (unsigned_squares hfinite) (List.forall_mem_map.2 h)

/-- The computed sum of squares of a vector that is not too long is near the exact one, as long as
it does not overflow. -/
theorem abs_value_dotProduct_self_sub_le (hlength : a.length ≤ 1024)
    (h : (dotProduct a a).isFinite = true) :
    |value (dotProduct a a) - exactSquares a|
      ≤ 2 ^ (-11 : ℤ) * exactSquares a + 2 ^ (-126 : ℤ) := by
  have hsquares := isFinite_mul_self_of_dotProduct hfinite h
  have hexact := exactSum_squares_bounds hfinite hsquares
  have hT := exactSum_squares_nonneg hfinite hsquares
  have hS := exactSquares_nonneg a
  rw [dotProduct_self] at h ⊢
  obtain ⟨hlower, hupper⟩ := Single.sum_bounds (unsigned_squares hfinite) h
  rw [List.length_map] at hlower hupper
  have hunderflow := length_mul_leastPositive_le (hlength.trans (by decide))
  have hmore := one_add_unitRoundoff_pow_le hlength
  have hless : 1 - 2 ^ (-13 : ℤ) ≤ (1 - unitRoundoff) ^ a.length := by
    refine le_trans ?_ (Single.one_sub_le_pow Single.unitRoundoff_lt_one.le)
    have := length_mul_unitRoundoff_le hlength
    linarith
  have hmore' := mul_le_mul_of_nonneg_right hmore hT
  have hless' := mul_le_mul_of_nonneg_right hless hT
  unfold unitRoundoff at hexact
  rw [abs_le] at hexact ⊢
  norm_num at hexact hunderflow hmore' hless' ⊢
  constructor <;> linarith

/-- The sum of squares is finite if the exact one leaves room for the errors. -/
theorem isFinite_dotProduct_self {c t : ℝ} (hmore : (1 + unitRoundoff) ^ a.length ≤ c)
    (hexact : (1 + unitRoundoff) * exactSquares a + a.length * leastPositive ≤ t)
    (h : c * t ≤ largest) :
    (dotProduct a a).isFinite = true ∧ value (dotProduct a a) ≤ c * t := by
  have hu := Single.unitRoundoff_pos
  have hS := exactSquares_nonneg a
  have hunderflow := length_mul_leastPositive_nonneg a.length
  have hc : 1 ≤ c := (one_le_pow₀ (by linarith)).trans hmore
  have ht : exactSquares a ≤ t := by nlinarith
  have hsquares : ∀ x ∈ a, (x * x).isFinite = true := by
    intro x hx
    refine (Single.roundsTo_mul (hfinite x hx) (hfinite x hx)).isFinite_of_le ?_
    rw [← pow_two, abs_of_nonneg (sq_nonneg (value x))]
    calc value x ^ 2 ≤ exactSquares a := sq_value_le hx
      _ ≤ t := ht
      _ ≤ c * t := le_mul_of_one_le_left (hS.trans ht) hc
      _ ≤ largest := h
  have hrounded : exactSum (a.map fun x => x * x) ≤ t := by
    have := (abs_le.1 (exactSum_squares_bounds hfinite hsquares)).2
    linarith
  have hsum : (1 + unitRoundoff) ^ (a.map fun x => x * x).length
      * exactSum (a.map fun x => x * x) ≤ c * t := by
    rw [List.length_map]
    exact mul_le_mul hmore hrounded (exactSum_squares_nonneg hfinite hsquares) (by linarith)
  rw [dotProduct_self]
  have hresult := Single.isFinite_sum (unsigned_squares hfinite)
    (List.forall_mem_map.2 hsquares) (hsum.trans h)
  exact ⟨hresult, (Single.sum_bounds (unsigned_squares hfinite) hresult).2.trans hsum⟩

end Sums

/-! ## Norms -/

section Norms

variable (hfinite : ∀ x ∈ a, x.isFinite = true)

include hfinite

theorem value_dotProduct_self_nonneg (h : (dotProduct a a).isFinite = true) :
    0 ≤ value (dotProduct a a) := by
  have hsquares := isFinite_mul_self_of_dotProduct hfinite h
  have hT := exactSum_squares_nonneg hfinite hsquares
  rw [dotProduct_self] at h ⊢
  refine le_trans ?_ (Single.sum_bounds (unsigned_squares hfinite) h).1
  have := Single.unitRoundoff_lt_one
  have : 0 ≤ 1 - unitRoundoff := by linarith
  positivity

/-- The norm is the rounded root of the sum of squares. -/
theorem roundsTo_norm (h : (dotProduct a a).isFinite = true) :
    RoundsTo √(value (dotProduct a a)) (norm a) :=
  Single.roundsTo_sqrt h (value_dotProduct_self_nonneg hfinite h)

/-- A norm is infinite exactly if the sum of squares is. -/
theorem isFinite_norm_iff : (norm a).isFinite = true ↔ (dotProduct a a).isFinite = true := by
  constructor
  · intro h
    cases a with
    | nil => decide
    | cons x rest =>
      have hunsigned : Unsigned (dotProduct (x :: rest) (x :: rest)) := by
        rw [dotProduct_self]
        exact Single.unsigned_sum (by simp) (unsigned_squares hfinite)
      exact hunsigned.isFinite_of_sqrt h
  · intro h
    exact Single.isFinite_sqrt h (value_dotProduct_self_nonneg hfinite h)

theorem value_norm_nonneg (h : (norm a).isFinite = true) : 0 ≤ value (norm a) := by
  have hdot := (isFinite_norm_iff hfinite).1 h
  exact ((roundsTo_norm hfinite hdot).faithful h).le_of_ge 0 Single.representable_zero
    (Real.sqrt_nonneg _)

end Norms

theorem value_normThreshold : value normThreshold = 2 ^ (-23 : ℤ) := by
  show ((0x800000 : ℕ) : ℤ) * (2 : ℝ) ^ (-46 : ℤ) = 2 ^ (-23 : ℤ)
  norm_num

theorem isFinite_normThreshold : normThreshold.isFinite = true := by
  decide

section Accuracy

variable (hfinite : ∀ x ∈ a, x.isFinite = true) (hlength : a.length ≤ 1024)

include hfinite hlength

/-- A norm above the threshold is near the exact one. -/
theorem abs_sq_value_norm_sub_le (h : (norm a).isFinite = true)
    (hlarge : 2 ^ (-23 : ℤ) < value (norm a)) :
    |value (norm a) ^ 2 - exactSquares a| ≤ 2 ^ (-10 : ℤ) * exactSquares a := by
  have hdot := (isFinite_norm_iff hfinite).1 h
  have hsum := abs_value_dotProduct_self_sub_le hfinite hlength hdot
  have hroot := (roundsTo_norm hfinite hdot).faithful h
  have hsq := Real.sq_sqrt (value_dotProduct_self_nonneg hfinite hdot)
  have hnonneg := Real.sqrt_nonneg (value (dotProduct a a))
  generalize √(value (dotProduct a a)) = r at *
  generalize value (dotProduct a a) = D at *
  generalize value (norm a) = N at *
  generalize exactSquares a = S at *
  have hr : 2 ^ (-23 : ℤ) < r := by
    by_contra hle
    exact absurd (hroot.le_of_le _ (Single.representable_two_zpow (by decide)) (not_lt.1 hle))
      (not_le.2 hlarge)
  have herror : |N - r| ≤ 2 ^ (-22 : ℤ) * r := by
    have := hroot.error
    rw [abs_of_nonneg hnonneg] at this
    unfold unitRoundoff leastPositive at this
    norm_num at this hr ⊢
    linarith
  have hsquare : |N ^ 2 - D| ≤ 2 ^ (-20 : ℤ) * D := by
    have := Single.abs_sq_sub_sq_le herror
    rw [hsq, abs_of_nonneg hnonneg] at this
    refine this.trans ?_
    rw [← hsq]
    norm_num
    nlinarith
  -- above the threshold, underflow is nothing against the sum
  have hD : 2 ^ (-46 : ℤ) < D := by
    rw [← hsq]
    norm_num at hr ⊢
    nlinarith
  rw [abs_le] at *
  norm_num at hsum hsquare hD ⊢
  constructor <;> linarith

/-- The norm is finite unless the exact one is close to the root of the largest value. -/
theorem isFinite_norm_of_exactNorm_le (h : exactNorm a ≤ 0.999 * 2 ^ (64 : ℤ)) :
    (norm a).isFinite = true := by
  have hunderflow := length_mul_leastPositive_le (hlength.trans (by decide))
  have hS := exactSquares_le h
  have hexact : (1 + unitRoundoff) * exactSquares a + a.length * leastPositive
      ≤ 0.9981 * 2 ^ (128 : ℤ) := by
    unfold unitRoundoff
    norm_num at hS hunderflow ⊢
    linarith
  rw [isFinite_norm_iff hfinite]
  refine (isFinite_dotProduct_self hfinite (one_add_unitRoundoff_pow_le hlength) hexact ?_).1
  unfold largest
  norm_num

/-- The norm is at most the threshold if the exact one is below it, by more than the errors. -/
theorem value_norm_le_of_exactNorm_le (h : exactNorm a ≤ 0.999 * 2 ^ (-23 : ℤ)) :
    value (norm a) ≤ 2 ^ (-23 : ℤ) := by
  have hnorm : (norm a).isFinite = true :=
    isFinite_norm_of_exactNorm_le hfinite hlength (h.trans (by norm_num))
  have hdot := (isFinite_norm_iff hfinite).1 hnorm
  have hsum := abs_value_dotProduct_self_sub_le hfinite hlength hdot
  refine ((roundsTo_norm hfinite hdot).faithful hnorm).le_of_le _
    (Single.representable_two_zpow (by decide)) ?_
  have hS := exactSquares_le h
  rw [Real.sqrt_le_iff]
  refine ⟨by positivity, ?_⟩
  rw [abs_le] at hsum
  norm_num at hsum hS ⊢
  linarith

/-- The norm is above the threshold if the exact one is, by more than the errors. -/
theorem lt_value_norm_of_lt_exactNorm (hnorm : (norm a).isFinite = true)
    (h : 1.001 * 2 ^ (-23 : ℤ) < exactNorm a) : 2 ^ (-23 : ℤ) < value (norm a) := by
  have hdot := (isFinite_norm_iff hfinite).1 hnorm
  have hsum := abs_value_dotProduct_self_sub_le hfinite hlength hdot
  -- the value that follows the threshold
  have hnext : Single.Representable (((2 ^ 23 + 1 : ℤ) : ℝ) * 2 ^ (-46 : ℤ)) :=
    ⟨2 ^ 23 + 1, -46, by decide, by decide, rfl⟩
  have hle := ((roundsTo_norm hfinite hdot).faithful hnorm).le_of_ge _ hnext (by
    have hS : (1.001 * 2 ^ (-23 : ℤ)) ^ 2 < exactSquares a := by
      rw [← exactNorm_sq]
      gcongr
    refine Real.le_sqrt_of_sq_le ?_
    rw [abs_le] at hsum
    norm_num at hsum hS ⊢
    linarith)
  refine lt_of_lt_of_le ?_ hle
  norm_num

end Accuracy

/-- The norm of a longer vector is finite too, if the exact one leaves enough room. -/
theorem value_norm_le (hfinite : ∀ x ∈ a, x.isFinite = true) (hlength : a.length ≤ 2 ^ 22)
    (h : exactNorm a ≤ 2 ^ (62 : ℤ)) :
    (norm a).isFinite = true ∧ value (norm a) ≤ 2 ^ (63 : ℤ) := by
  have hunderflow := length_mul_leastPositive_le hlength
  have hmore : (1 + unitRoundoff) ^ a.length ≤ 2 := by
    have hn : (a.length : ℝ) ≤ 2 ^ 22 := by exact_mod_cast hlength
    have herrors : a.length * unitRoundoff ≤ 1 / 2 := by
      calc a.length * unitRoundoff ≤ 2 ^ 22 * 2 ^ (-23 : ℤ) := by
            unfold unitRoundoff
            gcongr
        _ = 1 / 2 := by norm_num
    exact (Single.one_add_pow_le Single.unitRoundoff_pos.le herrors).trans (by linarith)
  have hexact : (1 + unitRoundoff) * exactSquares a + a.length * leastPositive
      ≤ 2 ^ (125 : ℤ) := by
    have hS := exactSquares_le h
    unfold unitRoundoff
    norm_num at hS hunderflow ⊢
    linarith
  obtain ⟨hdot, hle⟩ := isFinite_dotProduct_self hfinite hmore hexact (by
    unfold largest
    norm_num)
  have hnorm := (isFinite_norm_iff hfinite).2 hdot
  refine ⟨hnorm, ((roundsTo_norm hfinite hdot).faithful hnorm).le_of_le _
    (Single.representable_two_zpow (by decide)) ?_⟩
  rw [Real.sqrt_le_iff]
  refine ⟨by positivity, hle.trans ?_⟩
  norm_num

end NeighborSearch
