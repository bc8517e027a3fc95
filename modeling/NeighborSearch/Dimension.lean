import NeighborSearch.Error

/-!
# Vector dimensions

The number of components of the vectors in an index. It is never zero.
-/

namespace NeighborSearch

/-- A number of components. -/
structure Dimension where
  toNat : Nat
  pos : 0 < toNat
deriving DecidableEq

namespace Dimension

/-- The dimension `n`, if it is not zero. -/
def ofNat (n : Nat) : Except SearchError Dimension :=
  if h : 0 < n then .ok ⟨n, h⟩
  else .error (.invalidArgument "Vector dimension cannot be zero")

/-- Fails unless a vector has exactly this many components. -/
def check (d : Dimension) (vector : List Float32) : Except SearchError Unit :=
  if vector.length = d.toNat then .ok ()
  else .error (.dimensionMismatch d.toNat vector.length)

instance : ToString Dimension := ⟨fun d => toString d.toNat⟩

end Dimension

end NeighborSearch
