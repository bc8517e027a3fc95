import NeighborSearch.Json.Decode
import NeighborSearch.Report.Response
import NeighborSearch.Report.Search

/-!
# Reading reports back

What the program has written as JSON can be read as the values it was written from.
-/

namespace NeighborSearch

def Neighbor.ofJson? (value : RawJson) : Option Neighbor := do
  let fields ← value.fields? ["metadata", "distance"]
  let metadata ← fields.required? RawJson.text? "metadata"
  let distance ← fields.required? RawJson.single? "distance"
  return { metadata, distance }

def SearchResult.ofJson? (value : RawJson) : Option SearchResult := do
  let fields ← value.fields? ["nearest_neighbors"]
  let neighbors ← fields.required? (RawJson.list? Neighbor.ofJson?) "nearest_neighbors"
  return { neighbors }

def RunInfo.ofJson? (value : RawJson) : Option RunInfo := do
  let fields ← value.fields? ["version", "execution_time_ms"]
  let version ← fields.required? RawJson.text? "version"
  let milliseconds ← fields.optional? RawJson.uint64? "execution_time_ms"
  return { version, milliseconds }

namespace Response

/-- The suggestions in the details of an error. -/
def suggestionsOfJson? (value : RawJson) : Option (List String) := do
  let fields ← value.fields? ["suggestions"]
  fields.required? (RawJson.list? RawJson.text?) "suggestions"

/-- The names of the fields in order. -/
def fieldNames : List String :=
  ["status", "code", "message", "data", "error", "exit_code", "meta"]

/-- A response whose data is any value. The response itself counts among the arrays and objects that
may stand inside each other. -/
def ofJson? (value : RawJson) : Option Response := do
  let fields ← value.fields? fieldNames
  let status ← fields.required? RawJson.text? "status"
  let code ← fields.required? RawJson.text? "code"
  let message ← fields.required? RawJson.text? "message"
  let data ← fields.optional? (RawJson.value? (RawJson.greatestDepth - 1)) "data"
  let suggestions ← fields.optional? suggestionsOfJson? "error"
  let exitCode ← fields.required? RawJson.uint8? "exit_code"
  let run ← fields.optional? RunInfo.ofJson? "meta"
  return { status, code, message, data, suggestions, exitCode, run }

end Response

end NeighborSearch
