import NeighborSearch.Error
import Std.Data.TreeSet

/-!
# Metadata filters

A filter decides from its metadata alone whether a record may appear in a result. Records are
filtered before they are ranked.
-/

namespace NeighborSearch

/-- A set of metadata strings. -/
abbrev Labels := Std.TreeSet String

/-- Which records may appear in results. -/
inductive Filter where
  /-- Every record. -/
  | all
  /-- The records whose metadata is in the set. -/
  | allow (labels : Labels)
  /-- The records whose metadata is not in the set. -/
  | deny (labels : Labels)

namespace Filter

/-- Whether a record with this metadata may appear. -/
def accepts : Filter → String → Bool
  | all, _ => true
  | allow labels, metadata => labels.contains metadata
  | deny labels, metadata => !labels.contains metadata

/-- The filter of an allow list and a deny list. An empty list restricts nothing; two lists that
both restrict are refused. -/
def ofLists (allowed denied : List String) : Except SearchError Filter :=
  match allowed, denied with
  | [], [] => .ok all
  | _ :: _, [] => .ok (allow (.ofList allowed))
  | [], _ :: _ => .ok (deny (.ofList denied))
  | _ :: _, _ :: _ => .error (.invalidArgument
      "`metadata_allowlist` and `metadata_denylist` are mutually exclusive options.")

end Filter

end NeighborSearch
