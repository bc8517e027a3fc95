import NeighborSearch.Proofs.Single.TotalOrder
import NeighborSearch.Ranking.Candidate

/-!
# The order of candidates

A shortlist keeps its worst candidate on top, and a comparison that is not a linear order would let
it lose track of which one that is. Every bit pattern may turn up as a distance. This file gives

1. what it is for a comparison to be linear;
2. the order of candidates whose distances are numbers;
3. the laws of the comparison, for all candidates.
-/

namespace NeighborSearch

/-! ## Linear comparisons -/

section Linear

variable {α : Type} {cmp : α → α → Ordering}

/-- What a linear order asks of a comparison. -/
structure IsLinearComparison (cmp : α → α → Ordering) : Prop where
  swap : ∀ a b, cmp b a = (cmp a b).swap
  total : ∀ a b, (cmp a b).isLE = true ∨ (cmp b a).isLE = true
  antisymm : ∀ a b, (cmp a b).isLE = true → (cmp b a).isLE = true → a = b
  trans : ∀ a b c, (cmp a b).isLE = true → (cmp b c).isLE = true → (cmp a c).isLE = true

theorem isLinearComparison [Std.TransCmp cmp] [Std.LawfulEqCmp cmp] :
    IsLinearComparison cmp := by
  have hswap : ∀ a b, cmp b a = (cmp a b).swap := fun _ _ => Std.OrientedCmp.eq_swap
  refine ⟨hswap, fun a b => ?_, fun a b hab hba => ?_, fun _ _ _ => Std.TransCmp.isLE_trans⟩
  · rw [hswap a b]
    cases cmp a b <;> decide
  · have heq : cmp a b = .eq := by
      rw [hswap a b] at hba
      cases h : cmp a b with
      | eq => rfl
      | lt =>
        rw [h] at hba
        cases hba
      | gt =>
        rw [h] at hab
        cases hab
    exact Std.LawfulEqCmp.eq_of_compare heq

end Linear

namespace Candidate

open Single (number orderKey)

variable {a b : Candidate}

/-! ## Distances that are numbers -/

/-- Position decides only between distances of one bit pattern. -/
theorem compare_eq_lt_iff :
    a.compare b = .lt
      ↔ Single.totalCompare a.bits b.bits = .lt ∨ a.bits = b.bits ∧ a.position < b.position := by
  rw [compare, Ordering.then_eq_lt, Single.totalCompare_eq_iff, Nat.compare_eq_lt]

theorem compare_eq_lt_iff_number (ha : a.distance.isNaN = false) (hb : b.distance.isNaN = false) :
    a.compare b = .lt
      ↔ number a.distance < number b.distance
        ∨ (a.bits = 0x80000000 ∧ b.bits = 0)
        ∨ (a.bits = b.bits ∧ a.position < b.position) := by
  rw [compare_eq_lt_iff, Single.totalCompare_eq_lt_iff ha hb, or_assoc]
  rfl

/-! ## The laws of the comparison -/

/-- What a shortlist may rely on. -/
structure OrderLaws : Prop where
  linear : IsLinearComparison compare
  /-- The comparison that may find no order finds the same one. -/
  partially : ∀ a b : Candidate, a.partialCompare b = some (a.compare b)
  equality : ∀ a b : Candidate, a.equals b = true ↔ a.compare b = .eq
  /-- Candidates that compare as equal are the same, down to the bits of their distances. -/
  equal : ∀ a b : Candidate, a.compare b = .eq ↔ a.bits = b.bits ∧ a.position = b.position
  /-- Bit patterns are compared as signed words, those behind a sign bit with the others flipped. -/
  words : ∀ a b : Candidate, a.compare b
    = (Ord.compare (orderKey a.bits) (orderKey b.bits)).then (Ord.compare a.position b.position)
  /-- Distances that are numbers, infinities among them, are in the numeric order, with `-0` before
  `+0`, and position decides between equal ones. -/
  numeric : ∀ a b : Candidate, a.distance.isNaN = false → b.distance.isNaN = false →
    (a.compare b = .lt
      ↔ number a.distance < number b.distance
        ∨ (a.bits = 0x80000000 ∧ b.bits = 0)
        ∨ (a.bits = b.bits ∧ a.position < b.position))

/-- The order of candidates is linear whatever bits their distances are, and on numbers it is the
numeric order. -/
theorem orderLaws : OrderLaws where
  linear := isLinearComparison
  partially _ _ := rfl
  equality _ _ := beq_iff_eq
  equal a b := by
    rw [compare, Ordering.then_eq_eq, Single.totalCompare_eq_iff, Nat.compare_eq_eq]
  words a b := by
    rw [compare, Single.totalCompare_eq_compare_orderKey]
  numeric _ _ := compare_eq_lt_iff_number

/-- A negative zero is below a positive one at any position. -/
example : (⟨0x80000000, 7⟩ : Candidate).compare ⟨0, 2⟩ = .lt := by decide

end Candidate

end NeighborSearch
