import NeighborSearch.Single.Order

/-!
# Candidates

A record that has been compared with a query: the bit pattern of its distance and its position in
the index. Candidates are ordered by distance and then by position, so no two records of an index
are ever equal.
-/

namespace NeighborSearch

/-- A record compared with a query. -/
structure Candidate where
  /-- The bit pattern of the distance. -/
  bits : UInt32
  /-- The position of the record in the index. -/
  position : Nat
deriving DecidableEq, Repr

namespace Candidate

/-- The candidate of a distance and a position. -/
def ofDistance (distance : Float32) (position : Nat) : Candidate :=
  ⟨distance.toBits, position⟩

def distance (c : Candidate) : Float32 :=
  Float32.ofBits c.bits

/-- By the total order of the distances, then by position. -/
def compare (a b : Candidate) : Ordering :=
  (Single.totalCompare a.bits b.bits).then (Ord.compare a.position b.position)

instance : Std.TransCmp compare :=
  inferInstanceAs (Std.TransCmp (compareLex (compareOn fun c : Candidate => Single.rank c.bits)
    (compareOn Candidate.position)))

instance : Std.LawfulEqCmp compare where
  eq_of_compare {a b} h := by
    have h' : a.bits = b.bits ∧ a.position = b.position := by
      simpa only [compare, Ordering.then_eq_eq, Std.LawfulEqCmp.compare_eq_iff_eq,
        Std.LawfulEqOrd.compare_eq_iff_eq] using h
    cases a
    cases b
    simpa using h'

/-- The comparison as one that may find no order. It always finds one. -/
def partialCompare (a b : Candidate) : Option Ordering :=
  some (a.compare b)

/-- Equality of candidates as the comparison has it, which tells the two zeros apart. -/
def equals (a b : Candidate) : Bool :=
  a.compare b == .eq

/-- Whether one candidate comes before another. -/
def before (a b : Candidate) : Bool :=
  a.compare b == .lt

end Candidate

end NeighborSearch
