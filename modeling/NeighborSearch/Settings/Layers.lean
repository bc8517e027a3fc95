import NeighborSearch.Config.Variable
import NeighborSearch.Host
import NeighborSearch.Settings.Table
import NeighborSearch.Toml.Reader

/-!
# Loading settings

Settings come from three layers: the defaults, a settings file, and the environment. A value of a
higher layer hides the values of the same name below it and nothing else. Settings are refused with
the way to the value at fault, or with the empty way if the file is no text in TOML.
-/

namespace NeighborSearch

open Config (Entries)

namespace Host

variable {m : Type → Type} [Monad m] [Host m]

/-- The first of some paths at which a regular file stands. -/
def firstFile : List String → m (Option String)
  | [] => return none
  | path :: rest => do
    if ← isFile path then return some path else firstFile rest

/-- The first of some directories in which a directory of that name stands. -/
def firstWithDirectory (name : String) : List String → m (Option String)
  | [] => return none
  | directory :: rest => do
    if ← isDirectory (Path.join directory name) then return some directory
    else firstWithDirectory name rest

/-- The working directory and the directories above it, nearest first. -/
def enclosingDirectories : m (List String) := do
  match ← workingDirectory with
  | none => return []
  | some names => return (Path.ancestors names).map Path.ofNames

/-- The regular file at a path. A relative path is looked up in the working directory and then in
each directory above it. -/
def findFile (path : String) : m (Option String) := do
  if Path.isAbsolute path then firstFile [path]
  else firstFile ((← enclosingDirectories).map fun directory => Path.join directory path)

end Host

namespace Settings

variable {m : Type → Type} [Monad m] [Host m]

/-- The dialect of settings files. Their integers have 64 bits and a sign. -/
def fileDialect : Toml.Dialect where
  edition := .v10
  newline := ['\n']
  depth := 79
  integers := ⟨-0x8000000000000000, 0x7fffffffffffffff⟩

/-- The layer of the settings file at a path. Where no file stands, the layer is empty. -/
def fileLayer (path : String) : m (Except Config.Way Entries) := do
  match ← Host.findFile path with
  | none => return .ok []
  | some file =>
    match ← Host.readText file with
    | .error _ => return .error []
    | .ok text =>
      match Toml.read? fileDialect text with
      | none => return .error []
      | some entries => return .ok entries

/-- The settings of a file layer and an environment over the defaults. -/
def ofLayers (file : Entries) (environment : List (String × String)) : Except Config.Way Settings :=
  let defaults : Settings := {}
  let upper := Config.Variable.layer variableWord environment
  ofTable (Config.join upper (Config.join file defaults.toTable))

/-- Loads settings from a file at a path and the environment. -/
def loadFrom (path : String) : ExceptT Config.Way m Settings := do
  let file ← ExceptT.mk (fileLayer path)
  let environment ← (Host.environment : m _)
  MonadExcept.ofExcept (ofLayers file environment)

/-- The nearest enclosing directory with a settings directory. -/
def findWorkspace : m (Option String) := do
  Host.firstWithDirectory directoryName (← Host.enclosingDirectories)

/-- Loads settings from the file of the nearest workspace and the environment. The workspace is
taken down in the settings, if they do not name another one. -/
def load : ExceptT Config.Way m Settings := do
  let root ← (findWorkspace : m _)
  let settings ← loadFrom <| match root with
    | some root => fileUnder root
    | none => Path.join directoryName fileName
  return { settings with workspaceRoot := settings.workspaceRoot <|> root }

end Settings

end NeighborSearch
