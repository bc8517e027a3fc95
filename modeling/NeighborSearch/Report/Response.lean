import NeighborSearch.Error
import NeighborSearch.Json.Basic

/-!
# Responses

The JSON envelope around every result and every error of a command. Data stands only in successes
and suggestions only in errors; the exit status of the command is repeated inside.
-/

namespace NeighborSearch

/-- The version of the program. -/
def programVersion : String := "0.1.0"

/-- What is known about the run of a command. -/
structure RunInfo where
  version : String
  /-- The time the command took, in milliseconds. -/
  milliseconds : Option UInt64

def RunInfo.toJson (run : RunInfo) : Json :=
  .objectOf [("version", some (.string run.version)),
    ("execution_time_ms", run.milliseconds.map .natural)]

/-- The answer of a command. -/
structure Response where
  status : String
  code : String
  message : String
  data : Option Json
  suggestions : Option (List String)
  exitCode : UInt8
  run : Option RunInfo

namespace Response

/-- The response that carries a result. -/
def success (data : Json) (milliseconds : Option UInt64) : Response where
  status := "success"
  code := "OK"
  message := "Operation completed successfully"
  data := some data
  suggestions := none
  exitCode := ExitCode.success.toUInt8
  run := some ⟨programVersion, milliseconds⟩

/-- The text for something that was looked for and not found. -/
def notFoundMessage (entity name : String) : String :=
  entity ++ " '" ++ name ++ "' not found"

/-- The response when nothing was found. -/
def notFound (entity name : String) : Response where
  status := "error"
  code := StatusCode.notFound.text
  message := notFoundMessage entity name
  data := none
  suggestions := some ["Check that the metadata filters do not exclude every record"]
  exitCode := ExitCode.notFound.toUInt8
  run := none

/-- The response that reports an error. -/
def ofError (error : SearchError) : Response where
  status := "error"
  code := error.status.text
  message := error.message
  data := none
  suggestions := some error.suggestions
  exitCode := (ExitCode.ofError error).toUInt8
  run := none

def toJson (response : Response) : Json :=
  .objectOf [("status", some (.string response.status)),
    ("code", some (.string response.code)),
    ("message", some (.string response.message)),
    ("data", response.data),
    ("error", response.suggestions.map fun suggestions =>
      .object [("suggestions", .array (suggestions.map .string))]),
    ("exit_code", some (.natural response.exitCode.toUInt64)),
    ("meta", response.run.map RunInfo.toJson)]

end Response

end NeighborSearch
