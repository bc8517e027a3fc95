import NeighborSearch.Config.Read
import NeighborSearch.Settings

/-!
# Settings as configuration tables

`toTable` says settings as a table, `ofTable` reads them from one. A field that a table leaves out has
the default that its reading is given; a section that is left out has that of settings without any
source. The first value of a wrong type, in the order of the names, is reported by the way to it.
-/

namespace NeighborSearch

open Config (Entries Reading Value)

namespace EmbeddingOptions

/-- The names of the fields in order. -/
def fieldNames : List String := ["l2_normalize", "quantize"]

def toTable (o : EmbeddingOptions) : Entries :=
  [("l2_normalize", .boolean o.l2Normalize), ("quantize", .boolean o.quantize)]

def ofValue : Reading EmbeddingOptions := fun value => do
  let fields ← Config.fields fieldNames value
  let l2Normalize ← Config.field fields "l2_normalize" Config.boolean false
  let quantize ← Config.field fields "quantize" Config.boolean false
  return { l2Normalize, quantize }

end EmbeddingOptions

namespace SearchSettings

/-- The names of the fields in order. -/
def fieldNames : List String := ["max_results", "metadata_allowlist", "metadata_denylist"]

/-- A list of strings as a value. -/
def stringsValue (strings : List String) : Value :=
  .array (strings.map .string)

def toTable (s : SearchSettings) : Entries :=
  [("max_results", .integer s.maxResults.toNat), ("metadata_allowlist", stringsValue s.allowed),
    ("metadata_denylist", stringsValue s.denied)]

def ofValue : Reading SearchSettings := fun value => do
  let fields ← Config.fields fieldNames value
  let maxResults ← Config.field fields "max_results" Config.uint64 defaultCount
  let allowed ← Config.field fields "metadata_allowlist" (Config.list Config.string) []
  let denied ← Config.field fields "metadata_denylist" (Config.list Config.string) []
  return { maxResults, allowed, denied }

end SearchSettings

namespace LogSettings

/-- The names of the fields in order. -/
def fieldNames : List String := ["level"]

def toTable (s : LogSettings) : Entries :=
  [("level", .string s.level)]

def ofValue : Reading LogSettings := fun value => do
  let fields ← Config.fields fieldNames value
  let level ← Config.field fields "level" Config.string defaultLevel
  return { level }

end LogSettings

namespace Settings

/-- The entry of a string that may be absent. -/
def stringEntry (name : String) (text : Option String) : Entries :=
  (text.map fun text => (name, Value.string text)).toList

def toTable (s : Settings) : Entries :=
  ("version", .integer s.version.toNat)
    :: stringEntry "model_path" s.modelPath
    ++ stringEntry "index_path" s.indexPath
    ++ stringEntry "workspace_root" s.workspaceRoot
    ++ [("embedding", .table s.embedding.toTable), ("search", .table s.search.toTable),
      ("logging", .table s.logging.toTable)]

/-- The settings that a table says. -/
def ofTable (entries : Entries) : Except Config.Way Settings := do
  let embedding ← Config.entry entries "embedding" EmbeddingOptions.ofValue {}
  let indexPath ← Config.entry entries "index_path" (Config.optional Config.string) none
  let logging ← Config.entry entries "logging" LogSettings.ofValue {}
  let modelPath ← Config.entry entries "model_path" (Config.optional Config.string) none
  let search ← Config.entry entries "search" SearchSettings.ofValue {}
  let version ← Config.entry entries "version" Config.uint32 defaultVersion
  let workspaceRoot ← Config.entry entries "workspace_root" (Config.optional Config.string) none
  return { version, modelPath, indexPath, workspaceRoot, embedding, search, logging }

end Settings

end NeighborSearch
