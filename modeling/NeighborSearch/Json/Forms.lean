import NeighborSearch.Embedding
import NeighborSearch.Json.Decode
import NeighborSearch.Json.Printer
import NeighborSearch.Metric
import NeighborSearch.Searcher.Region

/-!
# JSON forms of metrics, embeddings and regions

A metric is written as its name, an embedding as the array of its components, a region as an object.
Reading does not check what the values mean: an array without components is read as an embedding.
-/

namespace NeighborSearch

namespace Metric

def toJson (m : Metric) : Json :=
  .string m.name

def ofJson? (value : RawJson) : Option Metric :=
  value.name?.bind ofName?

end Metric

namespace Embedding

def toJson (e : Embedding) : Json :=
  .array (e.values.map .single)

def ofJson? (value : RawJson) : Option Embedding :=
  (value.list? RawJson.single?).map Embedding.mk

end Embedding

namespace Region

def toJson (r : Region) : Json :=
  .object [("left", .natural r.left.toUInt64), ("top", .natural r.top.toUInt64),
    ("width", .natural r.width.toUInt64), ("height", .natural r.height.toUInt64)]

def ofJson? (value : RawJson) : Option Region := do
  let fields ← value.fields? ["left", "top", "width", "height"]
  let left ← fields.required? RawJson.uint32? "left"
  let top ← fields.required? RawJson.uint32? "top"
  let width ← fields.required? RawJson.uint32? "width"
  let height ← fields.required? RawJson.uint32? "height"
  return { left, top, width, height }

end Region

end NeighborSearch
