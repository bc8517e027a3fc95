import NeighborSearch.Host
import NeighborSearch.Settings.Text

/-!
# Writing settings files

Settings can be saved at any path, and a workspace can be given a settings file that explains
itself.
-/

namespace NeighborSearch.Settings

/-- Why a settings file is not written. -/
inductive Fault where
  /-- The path has no directory above it. -/
  | noParent
  /-- There is a settings file, and it is not to be overwritten. -/
  | exists
  | file (error : FileError)
deriving DecidableEq, Repr

/-- The text shown to the user. -/
def Fault.message : Fault → String
  | noParent => "Invalid path"
  | .exists => "Configuration file already exists. Use --force to overwrite"
  | file error => error.message

variable {m : Type → Type} [Monad m] [Host m]

/-- An operation on files, whose failure is a fault. -/
def onFiles {α : Type} (operation : m (Except FileError α)) : ExceptT Fault m α :=
  ExceptT.mk do return (← operation).mapError .file

/-- Makes the directories that are missing above a path. -/
def makeParents (path : String) : ExceptT Fault m Unit := do
  match Path.parent? path with
  | none => throw .noParent
  | some above => onFiles (Host.makeDirectories above)

/-- Saves settings at a path, and makes the directories above it that are missing. There is always a
text to be written, because the paths in settings are texts. -/
def save (s : Settings) (path : String) : ExceptT Fault m Unit := do
  makeParents path
  onFiles (Host.writeFile path s.toToml.toUTF8)

/-- The lines of a new settings file. They say the defaults. -/
def templateLines : List String := [
  "# embedsearch configuration file",
  "",
  "# Version of the configuration schema",
  "version = 1",
  "",
  "# Embedding model file handed to the embedding provider",
  "# model_path = \"models/embedder.tflite\"",
  "",
  "# Pre-built index file",
  "# index_path = \"data/searcher_index.ldb\"",
  "",
  "[embedding]",
  "# Scale query embeddings to unit length before searching",
  "l2_normalize = false",
  "# Quantized embeddings cannot be searched; must stay false",
  "quantize = false",
  "",
  "[search]",
  "# Number of nearest neighbors returned per query (must be > 0)",
  "max_results = " ++ toString defaultMaxResults,
  "# Only return records whose metadata is listed here",
  "metadata_allowlist = []",
  "# Never return records whose metadata is listed here",
  "# (mutually exclusive with metadata_allowlist)",
  "metadata_denylist = []",
  "",
  "[logging]",
  "# Default log filter when RUST_LOG is not set",
  "level = \"warn\""]

/-- The text of a new settings file. -/
def template : String :=
  String.join (templateLines.map (· ++ "\n"))

/-- Writes a new settings file for the workspace at a root and gives its path. A file that exists is
only replaced by force. -/
def initFile (root : String) (force : Bool) : ExceptT Fault m String := do
  let path := fileUnder root
  if !force && (← (Host.status path : m _)).isSome then throw .exists
  makeParents path
  onFiles (Host.writeFile path template.toUTF8)
  return path

end NeighborSearch.Settings
