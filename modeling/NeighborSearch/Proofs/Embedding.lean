import NeighborSearch.Embedding
import NeighborSearch.Proofs.Distance.Norm
import NeighborSearch.Proofs.Single.Whole

/-!
# Normalized embeddings

An embedding divided by its norm has an exact norm near one, if the computed one is above the
threshold and has not overflowed. For the computed norm is then near the exact one, and the errors of
the quotients, relative and from underflow, are small even if there is one in each component.
-/

namespace NeighborSearch

open Single (Whole RoundsTo value unitRoundoff leastPositive largest)

variable {a : List Float32} {x size : Float32}

/-! ## Components -/

section Components

variable (hsize : size.isFinite = true) (hN : 0 < value size)

include hN in
theorem abs_div_le_two (hle : |value x| ≤ 2 * value size) : |value x / value size| ≤ 2 := by
  rw [abs_div, abs_of_pos hN, div_le_iff₀ hN]
  exact hle

include hsize hN

/-- A component that is not much larger than the norm has a finite quotient. -/
theorem isFinite_div (hx : x.isFinite = true) (hle : |value x| ≤ 2 * value size) :
    (x / size).isFinite = true := by
  refine (Single.roundsTo_div hx hsize hN.ne').isFinite_of_le ((abs_div_le_two hN hle).trans ?_)
  unfold largest
  norm_num

/-- The error of the square of a quotient: three units in the last place, and what underflow adds. -/
theorem abs_sq_value_div_sub_le (hx : x.isFinite = true) (hle : |value x| ≤ 2 * value size) :
    |value (x / size) ^ 2 - value x ^ 2 / value size ^ 2|
      ≤ 3 * unitRoundoff * (value x ^ 2 / value size ^ 2) + 8 * leastPositive := by
  have hsmall := abs_div_le_two hN hle
  have herror := ((Single.roundsTo_div hx hsize hN.ne').faithful
    (isFinite_div hsize hN hx hle)).error
  rw [← div_pow]
  generalize value x / value size = w at *
  generalize value (x / size) = y at *
  have hu := Single.unitRoundoff_pos
  have hu' : unitRoundoff ≤ 1 / 2 := by
    unfold unitRoundoff
    norm_num
  have hη : 0 < leastPositive := zpow_pos two_pos _
  have hη' : leastPositive ≤ 1 := by
    unfold leastPositive
    norm_num
  refine (Single.abs_sq_sub_sq_le herror).trans ?_
  rw [← sq_abs w]
  have hnonneg := abs_nonneg w
  generalize |w| = t at *
  have hrelative : (2 + unitRoundoff) * unitRoundoff * t ^ 2 ≤ 3 * unitRoundoff * t ^ 2 := by
    gcongr
    linarith
  have hmixed : (2 + 2 * unitRoundoff) * (leastPositive * t) ≤ 3 * (leastPositive * 2) := by
    gcongr
    linarith
  have hunderflow : leastPositive * leastPositive ≤ leastPositive := by nlinarith
  calc (unitRoundoff * t + leastPositive) * (2 * t + (unitRoundoff * t + leastPositive))
      = (2 + unitRoundoff) * unitRoundoff * t ^ 2
          + (2 + 2 * unitRoundoff) * (leastPositive * t) + leastPositive * leastPositive := by ring
    _ ≤ 3 * unitRoundoff * t ^ 2 + 8 * leastPositive := by linarith

/-- The squares of the components of a vector divided by its norm. -/
theorem exactSquares_div_bounds (hfinite : ∀ x ∈ a, x.isFinite = true)
    (hle : ∀ x ∈ a, |value x| ≤ 2 * value size) :
    |exactSquares (a.map (· / size)) - exactSquares a / value size ^ 2|
      ≤ 3 * unitRoundoff * (exactSquares a / value size ^ 2) + 8 * (a.length * leastPositive) := by
  induction a with
  | nil => simp [exactSquares]
  | cons x rest ih =>
    rw [List.forall_mem_cons] at hfinite hle
    have hhead := abs_sq_value_div_sub_le hsize hN hfinite.1 hle.1
    have htail := ih hfinite.2 hle.2
    rw [List.map_cons, exactSquares_cons, exactSquares_cons, add_div, List.length_cons]
    rw [abs_le] at *
    push_cast
    constructor <;> linarith

end Components

/-! ## Normalized vectors -/

section Normalized

variable (hfinite : ∀ x ∈ a, x.isFinite = true) (hlength : a.length ≤ 1024)
  (hnorm : (norm a).isFinite = true) (hlarge : 2 ^ (-23 : ℤ) < value (norm a))

include hfinite hlength hnorm hlarge

/-- A vector above the threshold has components that are not much larger than its norm. -/
theorem abs_value_le_two_mul_norm (h : x ∈ a) : |value x| ≤ 2 * value (norm a) := by
  have hnear := (abs_le.1 (abs_sq_value_norm_sub_le hfinite hlength hnorm hlarge)).1
  have hsq := sq_value_le h
  have hpos : 0 < value (norm a) := lt_trans (zpow_pos two_pos _) hlarge
  refine abs_le_of_sq_le_sq ?_ (by linarith)
  have hS := exactSquares_nonneg a
  norm_num at hnear
  nlinarith

theorem isFinite_of_mem_div (h : x ∈ a.map (· / norm a)) : x.isFinite = true := by
  obtain ⟨y, hy, rfl⟩ := List.mem_map.1 h
  have hpos : 0 < value (norm a) := lt_trans (zpow_pos two_pos _) hlarge
  exact isFinite_div hnorm hpos (hfinite y hy)
    (abs_value_le_two_mul_norm hfinite hlength hnorm hlarge hy)

/-- The exact norm of a vector divided by its norm. -/
theorem abs_exactNorm_div_sub_one_le : |exactNorm (a.map (· / norm a)) - 1| ≤ 1 / 100 := by
  have hnear := abs_sq_value_norm_sub_le hfinite hlength hnorm hlarge
  have hpos : 0 < value (norm a) := lt_trans (zpow_pos two_pos _) hlarge
  have hdivided := exactSquares_div_bounds hnorm hpos hfinite
    fun x hx => abs_value_le_two_mul_norm hfinite hlength hnorm hlarge hx
  have hunderflow := length_mul_leastPositive_le (hlength.trans (by decide))
  have hsq : 0 < value (norm a) ^ 2 := pow_pos hpos 2
  have hS := exactSquares_nonneg a
  unfold exactNorm
  generalize exactSquares (a.map (· / norm a)) = Q at *
  -- the exact sum of squares of the quotients, before they are rounded
  have hratio : 0.998 ≤ exactSquares a / value (norm a) ^ 2
      ∧ exactSquares a / value (norm a) ^ 2 ≤ 1.002 := by
    rw [le_div_iff₀ hsq, div_le_iff₀ hsq]
    rw [abs_le] at hnear
    norm_num at hnear ⊢
    constructor <;> linarith
  have hQ : 0.99 ^ 2 ≤ Q ∧ Q ≤ 1.01 ^ 2 := by
    unfold unitRoundoff at hdivided
    rw [abs_le] at hdivided
    norm_num at hdivided hunderflow hratio ⊢
    constructor <;> linarith
  have hlower : 0.99 ≤ √Q := Real.le_sqrt_of_sq_le hQ.1
  have hupper : √Q ≤ 1.01 := Real.sqrt_le_iff.2 ⟨by norm_num, hQ.2⟩
  rw [abs_le]
  norm_num at hlower hupper ⊢
  constructor <;> linarith

end Normalized

/-! ## Zeros -/

theorem exactNorm_of_zeros (h : ∀ x ∈ a, value x = 0) : exactNorm a = 0 := by
  have hsquares : exactSquares a = 0 := by
    refine List.sum_eq_zero ?_
    intro v hv
    obtain ⟨x, hx, rfl⟩ := List.mem_map.1 hv
    rw [h x hx, zero_pow two_ne_zero]
  rw [exactNorm, hsquares, Real.sqrt_zero]

/-- Nothing is rounded in a sum of zeros, whatever their number. -/
theorem whole_norm_of_zeros (h : ∀ x ∈ a, Whole x 0) : Whole (norm a) 0 := by
  have hsquares : List.Forall₂ Whole (a.map fun x => x * x) (a.map fun _ => 0) := by
    refine List.forall₂_map_left_iff.2 (List.forall₂_map_right_iff.2 ?_)
    refine List.forall₂_same.2 fun x hx => ?_
    exact (h x hx).mul (h x hx) (by decide)
  have hsum : Whole (dotProduct a a) 0 := by
    have htotal : (a.map fun _ => (0 : ℤ)).sum = 0 := by simp
    have := Single.whole_sum hsquares (by simp) (by rw [htotal]; decide)
    rwa [htotal, ← dotProduct_self] at this
  have hroot := Single.roundsTo_sqrt hsum.1 (by rw [hsum.2, Int.cast_zero])
  rw [hsum.2, Int.cast_zero, Real.sqrt_zero] at hroot
  exact RoundsTo.whole (by rwa [Int.cast_zero]) (by decide)

/-! ## Normalization -/

namespace Embedding

variable {e : Embedding}

theorem normalized_of_le (h : norm e.values ≤ normThreshold) : e.normalized = e :=
  if_pos h

theorem normalized_of_not_le (h : ¬norm e.values ≤ normThreshold) :
    e.normalized.values = e.values.map (· / norm e.values) :=
  congrArg values (if_neg h)

/-- A finite norm is not at most the threshold exactly if it is above it. -/
theorem not_le_normThreshold_iff (h : (norm a).isFinite = true) :
    ¬norm a ≤ normThreshold ↔ 2 ^ (-23 : ℤ) < value (norm a) := by
  rw [Single.le_iff_value h isFinite_normThreshold, value_normThreshold, not_le]

theorem normalized_of_zeros (h : ∀ x ∈ e.values, Whole x 0) : e.normalized = e := by
  have hnorm := whole_norm_of_zeros h
  refine normalized_of_le ?_
  rw [Single.le_iff_value hnorm.1 isFinite_normThreshold, value_normThreshold, hnorm.2]
  norm_num

/-- Scaling an embedding of finite values. One of zeros is returned unchanged, and so is every one
whose computed norm is at most the threshold. Every other one whose norm has not overflowed is
scaled to finite values, and the exact norm of the result is within a hundredth of one, if it has at
most `1024` components. So the result is not zero, and not what it was made from unless that had
such a norm before. Up to a thousandth, the exact norm of the embedding says which case holds. -/
theorem normalized_unit (e : Embedding) (hfinite : e.values.all Float32.isFinite = true) :
    ((∀ x ∈ e.values, (x == 0) = true) → e.normalized = e)
    ∧ (norm e.values ≤ normThreshold → e.normalized = e)
    ∧ (e.dimension ≤ 1024 →
        (¬norm e.values ≤ normThreshold → (norm e.values).isFinite = true →
          e.normalized.values.all Float32.isFinite = true
          ∧ |exactNorm e.normalized.values - 1| ≤ 1 / 100
          ∧ (∃ x ∈ e.normalized.values, value x ≠ 0)
          ∧ (e.normalized = e → |exactNorm e.values - 1| ≤ 1 / 100))
        ∧ (exactNorm e.values ≤ 0.999 * 2 ^ (-23 : ℤ) → norm e.values ≤ normThreshold)
        ∧ (1.001 * 2 ^ (-23 : ℤ) < exactNorm e.values → exactNorm e.values ≤ 0.999 * 2 ^ (64 : ℤ) →
            ¬norm e.values ≤ normThreshold ∧ (norm e.values).isFinite = true)) := by
  rw [List.all_eq_true] at hfinite
  refine ⟨?_, normalized_of_le, fun hlength => ⟨?_, ?_, ?_⟩⟩
  · intro hzeros
    refine normalized_of_zeros fun x hx => ⟨hfinite x hx, ?_⟩
    rw [(Single.beq_iff_value (hfinite x hx) Single.isFinite_zero).1 (hzeros x hx),
      Single.value_of_bits_zero, Int.cast_zero]
  · intro hguard hnorm
    have hlarge := (not_le_normThreshold_iff hnorm).1 hguard
    have hunit := abs_exactNorm_div_sub_one_le hfinite hlength hnorm hlarge
    rw [← normalized_of_not_le hguard] at hunit
    refine ⟨?_, hunit, ?_, fun hsame => by rwa [hsame] at hunit⟩
    · rw [normalized_of_not_le hguard, List.all_eq_true]
      exact fun x hx => isFinite_of_mem_div hfinite hlength hnorm hlarge hx
    · by_contra hzeros
      have hzeros' : ∀ x ∈ e.normalized.values, value x = 0 :=
        fun x hx => not_not.1 fun hne => hzeros ⟨x, hx, hne⟩
      rw [exactNorm_of_zeros hzeros'] at hunit
      norm_num at hunit
  · intro hsmall
    have hnorm : (norm e.values).isFinite = true :=
      isFinite_norm_of_exactNorm_le hfinite hlength (hsmall.trans (by norm_num))
    rw [Single.le_iff_value hnorm isFinite_normThreshold, value_normThreshold]
    exact value_norm_le_of_exactNorm_le hfinite hlength hsmall
  · intro hlarge hsmall
    have hnorm := isFinite_norm_of_exactNorm_le hfinite hlength hsmall
    exact ⟨(not_le_normThreshold_iff hnorm).2
      (lt_value_norm_of_lt_exactNorm hfinite hlength hnorm hlarge), hnorm⟩

/-- A component too small to have a square, a zero with a sign, and components whose squares leave
little room. -/
def mixed : Embedding :=
  ⟨[.ofBits 0x00000001, .ofBits 0x80000000, .ofBits 0x5f000000, .ofBits 0xdf000001]⟩

theorem normalized_unit_mixed :
    mixed.values.all Float32.isFinite = true
    ∧ mixed.dimension ≤ 1024
    ∧ ¬norm mixed.values ≤ normThreshold
    ∧ (norm mixed.values).isFinite = true
    ∧ mixed.normalized.values.all Float32.isFinite = true
    ∧ |exactNorm mixed.normalized.values - 1| ≤ 1 / 100 := by
  have hfinite : mixed.values.all Float32.isFinite = true := by decide
  have hdimension : mixed.dimension ≤ 1024 := by decide
  have hguard : ¬norm mixed.values ≤ normThreshold := by decide +kernel
  have hnorm : (norm mixed.values).isFinite = true := by decide +kernel
  obtain ⟨hscaled, hunit, _⟩ := ((normalized_unit mixed hfinite).2.2 hdimension).1 hguard hnorm
  exact ⟨hfinite, hdimension, hguard, hnorm, hscaled, hunit⟩

/-- One component, a hundred millionth. -/
def faint : Embedding :=
  ⟨[.ofBits 0x322bcc77]⟩

/-- An embedding that is not zero and whose norm is below the threshold keeps a norm that is far
from one. -/
theorem normalized_faint :
    faint.values.all Float32.isFinite = true
    ∧ (∃ x ∈ faint.values, value x ≠ 0)
    ∧ faint.dimension ≤ 1024
    ∧ faint.normalized = faint
    ∧ ¬|exactNorm faint.normalized.values - 1| ≤ 1 / 100 := by
  have hvalue : value (.ofBits 0x322bcc77) = 11258999 * 2 ^ (-50 : ℤ) := by
    show ((0xabcc77 : ℕ) : ℤ) * (2 : ℝ) ^ (-50 : ℤ) = _
    norm_num
  have hsame : faint.normalized = faint := by
    refine normalized_of_le ?_
    decide +kernel
  refine ⟨by decide, ⟨_, List.mem_singleton_self _, ?_⟩, by decide, hsame, ?_⟩
  · rw [hvalue]
    positivity
  · have hnorm : exactNorm faint.values = 11258999 * 2 ^ (-50 : ℤ) := by
      have hsquares : exactSquares faint.values = (11258999 * 2 ^ (-50 : ℤ)) ^ 2 := by
        rw [faint, exactSquares_cons, hvalue, exactSquares, List.map_nil, List.sum_nil, add_zero]
      rw [exactNorm, hsquares, Real.sqrt_sq (by positivity)]
    rw [hsame, hnorm, not_le]
    norm_num [abs_of_neg]

end Embedding

end NeighborSearch
