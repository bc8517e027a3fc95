import NeighborSearch.Command.Options

/-!
# What a command line asks for

A command line is a command with its options. The settings file may be named before the command and
after it; the name after it counts.
-/

namespace NeighborSearch.Command

/-- What a search is asked for. What is absent is taken from the settings. -/
structure SearchArguments where
  index : Option String := none
  query : String
  maxResults : Option UInt64 := none
  allowed : List String := []
  denied : List String := []
  normalize : Bool := false
deriving DecidableEq, Repr

/-- A command of the program. -/
inductive Task where
  /-- Write a settings file for the workspace. -/
  | init (force : Bool)
  /-- Show the settings. -/
  | config
  /-- Describe an index. -/
  | info (index : Option String) (json : Bool)
  /-- Rank the records of an index. -/
  | search (arguments : SearchArguments) (json : Bool)
deriving DecidableEq, Repr

/-- A command with the settings file that is named for it. -/
structure Invocation where
  settingsFile : Option String := none
  task : Task
deriving DecidableEq, Repr

/-- What a command line asks for. -/
inductive Request where
  | run (invocation : Invocation)
  | version
  | help
deriving DecidableEq, Repr

/-- The options that are known everywhere. -/
def commonSwitches : List Switch := [.config, .verbose, .help]

/-- The options before the command. -/
def topSwitches : List Switch := .version :: commonSwitches

/-- The options of a command. -/
def switchesOf? (command : String) : Option (List Switch) :=
  match command with
  | "init" => some (.force :: commonSwitches)
  | "config" => some commonSwitches
  | "info" => some (.index :: .json :: commonSwitches)
  | "search" => some (.index :: .query :: .maxResults :: .allow :: .deny :: .normalize :: .json
      :: commonSwitches)
  | _ => none

/-- The command with its options. -/
def taskOf? (command : String) (given : Given) : Option Task :=
  match command with
  | "init" => some (.init (given.has .force))
  | "config" => some .config
  | "info" => some (.info (given.value? .index) (given.has .json))
  | "search" => (given.value? .query).map fun query =>
      .search {
        index := given.value? .index
        query
        maxResults := (given.value? .maxResults).bind Switch.count?
        allowed := given.values .allow
        denied := given.values .deny
        normalize := given.has .normalize } (given.has .json)
  | _ => none

/-- What an option asks for that ends everything. -/
def showRequest? : Switch → Option Request
  | .version => some .version
  | .help => some .help
  | _ => none

/-- The request of the help command with its arguments: at most one, which names a command. -/
def helpRequest? : List String → Option Request
  | [] => some .help
  | [command] =>
    if command = "help" ∨ (switchesOf? command).isSome then some .help else none
  | _ => none

/-- The request of a command and what follows it, after the options before the command. -/
def commandRequest? (top : Given) (command : String) (arguments : List String) : Option Request :=
  match switchesOf? command with
  | none => if command = "help" then helpRequest? arguments else none
  | some known =>
    match scan known {} arguments with
    | .options given [] =>
      (taskOf? command given).map fun task =>
        .run ⟨given.value? .config <|> top.value? .config, task⟩
    | .options _ (_ :: _) => none
    | .shown s => showRequest? s
    | .invalid => none

/-- What the arguments ask for, if they can be understood. -/
def request? (arguments : List String) : Option Request :=
  match scan topSwitches {} arguments with
  | .options top (command :: rest) => commandRequest? top command rest
  | .options _ [] => none
  | .shown s => showRequest? s
  | .invalid => none

end NeighborSearch.Command
