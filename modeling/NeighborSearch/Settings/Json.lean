import NeighborSearch.Json.Decode
import NeighborSearch.Json.Printer
import NeighborSearch.Settings

/-!
# Settings as JSON values
-/

namespace NeighborSearch

namespace EmbeddingOptions

def toJson (o : EmbeddingOptions) : Json :=
  .object [("l2_normalize", .bool o.l2Normalize), ("quantize", .bool o.quantize)]

def ofJson? (value : RawJson) : Option EmbeddingOptions := do
  let fields ← value.fields? ["l2_normalize", "quantize"]
  let l2Normalize ← fields.defaulted? RawJson.bool? "l2_normalize" false
  let quantize ← fields.defaulted? RawJson.bool? "quantize" false
  return { l2Normalize, quantize }

end EmbeddingOptions

namespace SearchSettings

/-- A list of strings as a value. -/
def stringsJson (strings : List String) : Json :=
  .array (strings.map .string)

def toJson (s : SearchSettings) : Json :=
  .object [("max_results", .natural s.maxResults), ("metadata_allowlist", stringsJson s.allowed),
    ("metadata_denylist", stringsJson s.denied)]

def ofJson? (value : RawJson) : Option SearchSettings := do
  let fields ← value.fields? ["max_results", "metadata_allowlist", "metadata_denylist"]
  let maxResults ← fields.defaulted? RawJson.uint64? "max_results" defaultCount
  let allowed ← fields.defaulted? (RawJson.list? RawJson.text?) "metadata_allowlist" []
  let denied ← fields.defaulted? (RawJson.list? RawJson.text?) "metadata_denylist" []
  return { maxResults, allowed, denied }

end SearchSettings

namespace LogSettings

def toJson (s : LogSettings) : Json :=
  .object [("level", .string s.level)]

def ofJson? (value : RawJson) : Option LogSettings := do
  let fields ← value.fields? ["level"]
  let level ← fields.defaulted? RawJson.text? "level" defaultLevel
  return { level }

end LogSettings

namespace Settings

def toJson (s : Settings) : Json :=
  .objectOf [("version", some (.natural s.version.toUInt64)),
    ("model_path", s.modelPath.map .string),
    ("index_path", s.indexPath.map .string),
    ("workspace_root", s.workspaceRoot.map .string),
    ("embedding", some s.embedding.toJson),
    ("search", some s.search.toJson),
    ("logging", some s.logging.toJson)]

/-- The names of the fields in order. -/
def fieldNames : List String :=
  ["version", "model_path", "index_path", "workspace_root", "embedding", "search", "logging"]

def ofJson? (value : RawJson) : Option Settings := do
  let path := RawJson.Fields.nullable? RawJson.text?
  let fields ← value.fields? fieldNames
  let version ← fields.defaulted? RawJson.uint32? "version" defaultVersion
  let modelPath ← fields.defaulted? path "model_path" none
  let indexPath ← fields.defaulted? path "index_path" none
  let workspaceRoot ← fields.defaulted? path "workspace_root" none
  let embedding ← fields.defaulted? EmbeddingOptions.ofJson? "embedding" {}
  let search ← fields.defaulted? SearchSettings.ofJson? "search" {}
  let logging ← fields.defaulted? LogSettings.ofJson? "logging" {}
  return { version, modelPath, indexPath, workspaceRoot, embedding, search, logging }

end Settings

end NeighborSearch
