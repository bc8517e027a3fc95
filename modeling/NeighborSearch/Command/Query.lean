import NeighborSearch.Command.Wording
import NeighborSearch.Embedding
import NeighborSearch.Host
import NeighborSearch.Json.Decode

/-!
# Queries of the command line

A query is the JSON text of an array of numbers, in a file or on the standard input.
-/

namespace NeighborSearch.Command

variable [Wording]

/-- The embedding of a query text. -/
def parseQuery (text : String) : Except SearchError Embedding :=
  match (RawJson.parse? text).bind (RawJson.list? RawJson.single?) with
  | none =>
    .error (.invalidArgument ("Query must be a JSON array of numbers: " ++ Wording.queryFault text))
  | some values => Embedding.ofValues values

/-- Whether a path stands for the standard input. -/
def isStandardInput (path : String) : Bool :=
  Path.parts path == [.name "-"]

variable {m : Type → Type} [Monad m] [Host m]

/-- The text of the query at a path. -/
def queryText (path : String) : ExceptT SearchError m String := do
  if isStandardInput path then
    match ← (Host.inputText : m (Except FileError String)) with
    | .ok text => return text
    | .error error =>
      throw (.invalidArgument ("Failed to read query from stdin: " ++ error.message))
  else
    match ← (Host.readText path : m (Except FileError String)) with
    | .ok text => return text
    | .error error =>
      throw (.invalidArgument ("Failed to read query file '" ++ path ++ "': " ++ error.message))

/-- The query at a path. -/
def readQuery (path : String) : ExceptT SearchError m Embedding := do
  MonadExcept.ofExcept (parseQuery (← queryText path))

end NeighborSearch.Command
