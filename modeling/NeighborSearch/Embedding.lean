import NeighborSearch.Dimension
import NeighborSearch.Distance

/-!
# Embeddings

A feature vector made by an embedding provider, and its scaling to unit length.
-/

namespace NeighborSearch

/-- A feature vector. -/
structure Embedding where
  values : List Float32
deriving DecidableEq

namespace Embedding

/-- An embedding of the given values. An empty one could match no index. -/
def ofValues (values : List Float32) : Except SearchError Embedding :=
  match Dimension.ofNat values.length with
  | .ok _ => .ok ⟨values⟩
  | .error error => .error error

/-- The number of components. -/
def dimension (e : Embedding) : Nat :=
  e.values.length

/-- The embedding divided by its norm. One without direction is left as it is. -/
def normalized (e : Embedding) : Embedding :=
  let size := norm e.values
  if size ≤ normThreshold then e else ⟨e.values.map (· / size)⟩

theorem length_normalized (e : Embedding) : e.normalized.values.length = e.values.length := by
  unfold normalized
  dsimp only
  split
  · rfl
  · exact List.length_map _

end Embedding

end NeighborSearch
