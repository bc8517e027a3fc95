import NeighborSearch.Error

/-!
# Regions of interest

The part of an input that an embedding provider is to look at.
-/

namespace NeighborSearch

/-- A rectangle in an input. -/
structure Region where
  left : UInt32
  top : UInt32
  width : UInt32
  height : UInt32
deriving DecidableEq, Repr

namespace Region

/-- Fails for a region without area. -/
def check (r : Region) : Except SearchError Unit :=
  if r.width = 0 ∨ r.height = 0 then
    .error (.invalidArgument ("Invalid region of interest: " ++ toString r.width.toNat ++ "x"
      ++ toString r.height.toNat ++ " box has no area"))
  else .ok ()

/-- The region with these edges, if it has an area. -/
def ofEdges (left top width height : UInt32) : Except SearchError Region := do
  let r : Region := ⟨left, top, width, height⟩
  r.check
  return r

end Region

end NeighborSearch
