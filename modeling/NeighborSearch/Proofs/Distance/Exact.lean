import NeighborSearch.Proofs.Ranking.Distances
import NeighborSearch.Proofs.Single.Whole

/-!
# Exact distances

While all numbers on the way are integers with room in single precision, nothing is rounded, and the
order of a sum makes no difference. So on vectors of integers the lane sum is the plain sum, whatever
is left of the length of the vectors when the lanes have had their turns.
-/

namespace NeighborSearch

open Single (Whole Unsigned)

variable {x y : Float32} {i j : ℤ} {a b : List Float32} {is js : List ℤ}

/-- The sum of squared differences of two vectors of integers. -/
def integerSquaredL2 (is js : List ℤ) : ℤ :=
  (List.zipWith (fun i j => (i - j) ^ 2) is js).sum

theorem integerSquaredL2_cons (i j : ℤ) (is js : List ℤ) :
    integerSquaredL2 (i :: is) (j :: js) = (i - j) ^ 2 + integerSquaredL2 is js :=
  List.sum_cons

theorem squares_nonneg (is js : List ℤ) :
    ∀ k ∈ List.zipWith (fun i j : ℤ => (i - j) ^ 2) is js, 0 ≤ k := by
  intro k hk
  obtain ⟨n, hn⟩ := List.mem_iff_getElem?.1 hk
  obtain ⟨i, j, _, _, rfl⟩ := List.getElem?_zipWith_eq_some.1 hn
  exact sq_nonneg _

theorem integerSquaredL2_nonneg (is js : List ℤ) : 0 ≤ integerSquaredL2 is js :=
  List.sum_nonneg (squares_nonneg is js)

theorem whole_squaredDifference (hx : Whole x i) (hy : Whole y j) (hi : |i| ≤ 2 ^ 23)
    (hj : |j| ≤ 2 ^ 23) (h : (i - j) ^ 2 ≤ 2 ^ 24) :
    Whole (squaredDifference x y) ((i - j) ^ 2) := by
  have hdifference : |i - j| ≤ 2 ^ 24 := by
    rw [abs_le] at *
    omega
  have hd := hx.sub hy hdifference
  have hsquare := hd.mul hd (by rwa [← pow_two, abs_of_nonneg (sq_nonneg _)])
  rwa [← pow_two] at hsquare

/-- The terms of the sum are exact, if their total is small. -/
theorem forall₂_squaredDifference (ha : List.Forall₂ Whole a is) (hb : List.Forall₂ Whole b js)
    (his : ∀ i ∈ is, |i| ≤ 2 ^ 23) (hjs : ∀ j ∈ js, |j| ≤ 2 ^ 23)
    (htotal : integerSquaredL2 is js ≤ 2 ^ 24) :
    List.Forall₂ Whole (List.zipWith squaredDifference a b)
      (List.zipWith (fun i j => (i - j) ^ 2) is js) := by
  induction ha generalizing b js with
  | nil => exact .nil
  | @cons x i a is hx _ ih =>
    cases hb with
    | nil => exact .nil
    | @cons y j b js hy hb =>
      rw [List.forall_mem_cons] at his hjs
      rw [integerSquaredL2_cons] at htotal
      have hrest := integerSquaredL2_nonneg is js
      have hsquare := sq_nonneg (i - j)
      exact .cons (whole_squaredDifference hx hy his.1 hjs.1 (by omega))
        (ih hb his.2 hjs.2 (by omega))

theorem whole_squaredL2 (ha : List.Forall₂ Whole a is) (hb : List.Forall₂ Whole b js)
    (his : ∀ i ∈ is, |i| ≤ 2 ^ 23) (hjs : ∀ j ∈ js, |j| ≤ 2 ^ 23)
    (htotal : integerSquaredL2 is js ≤ 2 ^ 24) :
    Whole (squaredL2 a b) (integerSquaredL2 is js) :=
  Single.whole_laneSum (forall₂_squaredDifference ha hb his hjs htotal) (squares_nonneg is js)
    htotal

theorem all_isFinite_of_whole (ha : List.Forall₂ Whole a is) : a.all Float32.isFinite = true := by
  induction ha with
  | nil => rfl
  | cons hx _ ih => rw [List.all_cons, hx.1, ih, Bool.and_self]

/-- The squared distance of two vectors of integers is the integer it should be, bit for bit, if
the components are at most `2 ^ 23` and it is at most `2 ^ 24`. -/
theorem squaredL2_of_whole (a b : List Float32) (is js : List ℤ) (ha : List.Forall₂ Whole a is)
    (hb : List.Forall₂ Whole b js) (his : ∀ i ∈ is, |i| ≤ 2 ^ 23) (hjs : ∀ j ∈ js, |j| ≤ 2 ^ 23)
    (htotal : (List.zipWith (fun i j => (i - j) ^ 2) is js).sum ≤ 2 ^ 24) :
    (squaredL2 a b).toBits
      = (Float32.ofInt (List.zipWith (fun i j => (i - j) ^ 2) is js).sum).toBits := by
  have hunsigned := unsigned_squaredL2 (all_isFinite_of_whole ha) (all_isFinite_of_whole hb)
  exact congrArg Float32.toBits
    ((whole_squaredL2 ha hb his hjs htotal).eq_ofInt hunsigned htotal)

/-- One round of the accumulators and a rest of three, with components at the limit and a total close
to the limit of totals. -/
theorem squaredL2_of_whole_eleven :
    (∀ i ∈ ([8388608, -8388607, 3, 0, -5, 1, 1, 1, 2000, 7, -1] : List ℤ), |i| ≤ 2 ^ 23)
    ∧ (∀ j ∈ ([8388607, -8388608, 0, 0, 5, -1, 1, 0, -2000, 7, 1] : List ℤ), |j| ≤ 2 ^ 23)
    ∧ (squaredL2 ([8388608, -8388607, 3, 0, -5, 1, 1, 1, 2000, 7, -1].map Float32.ofInt)
        ([8388607, -8388608, 0, 0, 5, -1, 1, 0, -2000, 7, 1].map Float32.ofInt)).toBits
      = (Float32.ofInt 16000120).toBits := by
  have his : ∀ i ∈ ([8388608, -8388607, 3, 0, -5, 1, 1, 1, 2000, 7, -1] : List ℤ),
      |i| ≤ 2 ^ 23 := by decide
  have hjs : ∀ j ∈ ([8388607, -8388608, 0, 0, 5, -1, 1, 0, -2000, 7, 1] : List ℤ),
      |j| ≤ 2 ^ 23 := by decide
  have hwhole {ns : List ℤ} (h : ∀ n ∈ ns, |n| ≤ 2 ^ 23) :
      List.Forall₂ Whole (ns.map Float32.ofInt) ns :=
    Single.forall₂_whole_ofInt fun n hn => (h n hn).trans (by decide)
  exact ⟨his, hjs, squaredL2_of_whole _ _ _ _ (hwhole his) (hwhole hjs) his hjs (by decide)⟩

end NeighborSearch
