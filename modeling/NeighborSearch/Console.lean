import NeighborSearch.Host
import NeighborSearch.Json.Printer
import NeighborSearch.Report
import NeighborSearch.Report.Response

/-!
# The console of a command

A command shows its outcome in one of two formats and ends with an exit status. Results go to the
standard output and errors to the standard error; that nothing was found is an answer for programs
and an error for people.
-/

namespace NeighborSearch

/-- How an outcome is shown. -/
inductive OutputFormat where
  /-- For people. -/
  | text
  /-- As a JSON envelope. -/
  | json
deriving DecidableEq, Repr

/-- The format that a flag asks for. -/
def OutputFormat.ofJsonFlag (json : Bool) : OutputFormat :=
  if json then .json else .text

/-- Text for a stream, and the exit status that goes with it. -/
structure Announcement where
  stream : Stream
  text : String
  exitCode : ExitCode
deriving DecidableEq

namespace Announcement

/-- A line for a stream. -/
def line (stream : Stream) (text : String) (exitCode : ExitCode) : Announcement :=
  ⟨stream, text ++ "\n", exitCode⟩

/-- What shows a result. The time is in microseconds and shown in milliseconds. -/
def success (format : OutputFormat) (report : Report) (elapsed : Option Nat) : Announcement :=
  match format with
  | .text => line .output report.text .success
  | .json =>
    let milliseconds := elapsed.map fun time => UInt64.ofNat (time / 1000)
    line .output (Response.success report.data milliseconds).toJson.toPretty .success

/-- What shows that something was not found. -/
def notFound (format : OutputFormat) (entity name : String) : Announcement :=
  match format with
  | .text => line .errors (Response.notFoundMessage entity name) .notFound
  | .json => line .output (Response.notFound entity name).toJson.toPretty .notFound

/-- The lines that show an error to people. -/
def errorLines (error : SearchError) : List String :=
  ("Error: " ++ error.message)
    :: error.suggestions.map fun suggestion => "  Suggestion: " ++ suggestion

/-- What shows an error. -/
def ofError (format : OutputFormat) (error : SearchError) : Announcement :=
  match format with
  | .text => line .errors ("\n".intercalate (errorLines error)) (.ofError error)
  | .json => line .errors (Response.ofError error).toJson.toPretty (.ofError error)

/-- Writes an announcement and gives its exit status. -/
def send {m : Type → Type} [Monad m] [Host m] (announcement : Announcement) :
    ExceptT FileError m ExitCode := do
  ExceptT.mk (Host.write announcement.stream announcement.text)
  return announcement.exitCode

end Announcement

end NeighborSearch
