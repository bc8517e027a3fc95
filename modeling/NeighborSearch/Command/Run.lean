import NeighborSearch.Command.Query
import NeighborSearch.Command.Request
import NeighborSearch.Console
import NeighborSearch.Report.IndexInfo
import NeighborSearch.Report.Search
import NeighborSearch.Settings.File
import NeighborSearch.Settings.Layers

/-!
# Running commands

The program on any host: its arguments decide what is written to the standard streams and to files,
and the exit status. Whatever the wording of the libraries is, it decides nothing.
-/

namespace NeighborSearch.Command

variable [Wording] {m : Type → Type} [Monad m] [Host m]

/-! ## Searching and describing an index -/

/-- The index that is named in the arguments, or else in the settings. -/
def resolveIndex (index : Option String) (settings : Settings) : Except SearchError String :=
  match (index <|> settings.indexPath).filter (· ≠ "") with
  | some path => .ok path
  | none => .error indexMissing

/-- The summary of an index. -/
def indexInfo (index : Option String) (settings : Settings) : ExceptT SearchError m IndexInfo := do
  let path ← MonadExcept.ofExcept (resolveIndex index settings)
  let store ← (IndexSource.file path).load
  (IndexInfo.inspect path store : m _)

/-- A list from the arguments, or else from the settings. -/
def listOr (given configured : List String) : List String :=
  if given.isEmpty then configured else given

/-- Searches an index. The arguments are checked before any file is opened. -/
def search (arguments : SearchArguments) (settings : Settings) :
    ExceptT SearchError m SearchReport := do
  let index ← MonadExcept.ofExcept (resolveIndex arguments.index settings)
  if settings.embedding.quantize then throw quantizeRefused
  let filter ← MonadExcept.ofExcept (Filter.ofLists
    (listOr arguments.allowed settings.search.allowed)
    (listOr arguments.denied settings.search.denied))
  let maxResults := (arguments.maxResults.getD settings.search.maxResults).toNat
  MonadExcept.ofExcept (checkMaxResults maxResults)
  let store ← (IndexSource.file index).load
  let query ← readQuery arguments.query
  let query :=
    if arguments.normalize || settings.embedding.l2Normalize then query.normalized else query
  let result ← MonadExcept.ofExcept (store.search query.values { maxResults, filter })
  return { index, maxResults, result }

/-! ## Announcing outcomes -/

/-- How the outcome of the info command is announced. -/
def announceInfo (format : OutputFormat) (elapsed : Nat) :
    Except SearchError IndexInfo → Announcement
  | .ok info => .success format info.toReport (some elapsed)
  | .error error => .ofError format error

/-- How the outcome of the search command is announced. A search without any neighbor has not found
what it was for. -/
def announceSearch (format : OutputFormat) (elapsed : Nat) :
    Except SearchError SearchReport → Announcement
  | .ok report =>
    if report.result.isEmpty then .notFound format "Neighbor" "any"
    else .success format report.toReport (some elapsed)
  | .error error => .ofError format error

/-- The time that an action takes, with its outcome. -/
def timed {α : Type} (action : m α) : m (α × Nat) := do
  let started ← Host.clock
  let outcome ← action
  return (outcome, (← Host.clock) - started)

/-! ## Commands -/

/-- Writes a line. -/
def writeLine (stream : Stream) (line : String) : ExceptT FileError m Unit :=
  ExceptT.mk (Host.write stream (line ++ "\n"))

/-- The line that reports a failure outside of searches. -/
def failureLine (text : String) : String :=
  "Error: " ++ text

/-- Writes a settings file in the working directory. -/
def runInit (force : Bool) : ExceptT FileError m ExitCode := do
  match ← (Settings.initFile "." force : ExceptT Settings.Fault m String).run with
  | .ok path =>
    writeLine .output ("Created configuration file at: " ++ path)
    writeLine .output "Edit this file to customize your settings."
    return .success
  | .error fault =>
    writeLine .errors (failureLine fault.message)
    return .generalError

/-- The line under the heading of the settings. -/
def headingRule : String :=
  String.ofList (List.replicate 50 '=')

/-- Shows the settings. -/
def runConfig (settings : Settings) : ExceptT FileError m ExitCode := do
  writeLine .output "Current Configuration:"
  writeLine .output headingRule
  writeLine .output settings.toToml
  return .success

/-- Runs a command with settings. -/
def runTask (settings : Settings) : Task → ExceptT FileError m ExitCode
  | .init force => runInit force
  | .config => runConfig settings
  | .info index json => do
    let (outcome, elapsed) ←
      (timed (indexInfo index settings : ExceptT SearchError m IndexInfo).run : m _)
    (announceInfo (.ofJsonFlag json) elapsed outcome).send
  | .search arguments json => do
    let (outcome, elapsed) ←
      (timed (search arguments settings : ExceptT SearchError m SearchReport).run : m _)
    (announceSearch (.ofJsonFlag json) elapsed outcome).send

/-! ## The program -/

/-- The line about settings that are refused. -/
def refusalLine (settingsFile : Option String) (way : Config.Way) : String :=
  match settingsFile with
  | some path => "Configuration error loading from " ++ path ++ ": "
      ++ Wording.settingsFault way
  | none => "Configuration error: " ++ Wording.settingsFault way

/-- The settings of an invocation. If a settings file is named, its refusal ends the program;
otherwise the defaults take the place of settings that are refused. -/
def settingsOf (settingsFile : Option String) : ExceptT FileError m (Option Settings) := do
  let loaded ← match settingsFile with
    | some path => ((Settings.loadFrom path : ExceptT Config.Way m Settings).run : m _)
    | none => ((Settings.load : ExceptT Config.Way m Settings).run : m _)
  match loaded with
  | .ok settings => return some settings
  | .error way =>
    writeLine .errors (refusalLine settingsFile way)
    return if settingsFile.isSome then none else some {}

/-- Runs an invocation. -/
def invoke (invocation : Invocation) : ExceptT FileError m ExitCode := do
  match ← settingsOf invocation.settingsFile with
  | none => return .configError
  | some settings => runTask settings invocation.task

/-- The exit status of arguments that cannot be understood. -/
def usageStatus : UInt8 := 2

/-- Runs the program and gives its exit status. -/
def run (arguments : List String) : m UInt8 := do
  let outcome ← ExceptT.run do
    match request? arguments with
    | none =>
      writeLine .errors (Wording.usageFault arguments)
      return usageStatus
    | some .help =>
      writeLine .output (Wording.help arguments)
      return ExitCode.success.toUInt8
    | some .version =>
      writeLine .output ("embedsearch " ++ programVersion)
      return ExitCode.success.toUInt8
    | some (.run invocation) => return (← invoke invocation).toUInt8
  match outcome with
  | .ok status => return status
  | .error error =>
    let _ ← Host.write .errors (failureLine error.message ++ "\n")
    return ExitCode.generalError.toUInt8

end NeighborSearch.Command
