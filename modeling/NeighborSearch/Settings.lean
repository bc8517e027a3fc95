import NeighborSearch.Searcher.Options

/-!
# Settings

The settings of the program, and the options of a searcher that they stand for.

There are two kinds of defaults. Settings that are made without any source have the values that
stand in the structures. A source that leaves out a field has the default of this field, which stands
where sources are read; some of these are named here, because both kinds use them.
-/

namespace NeighborSearch

/-- The version of settings that say none. -/
def defaultVersion : UInt32 := 1

/-- The number of results of settings that say none. -/
def defaultCount : UInt64 := .ofNat defaultMaxResults

/-- The level of the log of settings that say none. -/
def defaultLevel : String := "warn"

/-- Settings of the ranking. -/
structure SearchSettings where
  maxResults : UInt64 := defaultCount
  allowed : List String := []
  denied : List String := []
deriving DecidableEq, Repr

/-- Settings of the log. -/
structure LogSettings where
  level : String := defaultLevel
deriving DecidableEq, Repr

/-- The settings of the program. Their paths are texts, so every settings can be written as JSON and
as TOML. -/
structure Settings where
  /-- The version of the settings themselves. -/
  version : UInt32 := defaultVersion
  modelPath : Option String := none
  indexPath : Option String := none
  workspaceRoot : Option String := none
  embedding : EmbeddingOptions := {}
  search : SearchSettings := {}
  logging : LogSettings := {}
deriving DecidableEq, Repr

namespace Settings

/-- The directory that holds the settings file of a workspace. -/
def directoryName : String := ".embedsearch"

/-- The name of the settings file in that directory. -/
def fileName : String := "settings.toml"

/-- What the names of environment variables with settings start with. -/
def variableWord : String := "ES_"

/-- The settings file of the workspace at a root. -/
def fileUnder (root : String) : String :=
  Path.join (Path.join root directoryName) fileName

/-- The file at a path, or no file. -/
def externalFile (path : Option String) : ExternalFile :=
  match path with
  | some path => .ofPath path
  | none => {}

/-- The options of a searcher for the configured model and index. -/
def toSearcherOptions (s : Settings) : SearcherOptions where
  modelFile := externalFile s.modelPath
  embedding := s.embedding
  search := {
    indexFile := externalFile s.indexPath
    maxResults := s.search.maxResults.toNat
    allowed := s.search.allowed
    denied := s.search.denied }

end Settings

end NeighborSearch
