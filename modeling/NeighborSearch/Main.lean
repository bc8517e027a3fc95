import NeighborSearch.Command.Run

/-!
# The program

The machine that the program is started on, as a host. It decides nothing: every rule stands in the
modules that run on any host.
-/

namespace NeighborSearch.Program

/-- The number of an operating-system error. -/
def errorNumber? : IO.Error → Option UInt32
  | .alreadyExists _ number _ => some number
  | .otherError number _ => some number
  | .resourceBusy number _ => some number
  | .resourceVanished number _ => some number
  | .unsupportedOperation number _ => some number
  | .hardwareFault number _ => some number
  | .unsatisfiedConstraints number _ => some number
  | .illegalOperation number _ => some number
  | .protocolError number _ => some number
  | .timeExpired number _ => some number
  | .interrupted _ number _ => some number
  | .noFileOrDirectory _ number _ => some number
  | .invalidArgument _ number _ => some number
  | .permissionDenied _ number _ => some number
  | .resourceExhausted _ number _ => some number
  | .inappropriateType _ number _ => some number
  | .noSuchThing _ number _ => some number
  | .unexpectedEof => none
  | .userError _ => none

/-- A failure of this machine as a failure of a file. -/
def fileError (error : IO.Error) : FileError :=
  match errorNumber? error with
  | some number => .system number.toNat
  | none => .described .other (toString error)

/-- The outcome of an action on the file at a path. -/
def attempt {α : Type} (path : String) (action : IO α) : IO (Except FileError α) := do
  if path.toList.contains '\x00' then return .error .nulInPath
  try return .ok (← action)
  catch error => return .error (fileError error)

/-- The environment of the running process. -/
def environment : IO (List (String × String)) := do
  let bytes ← try IO.FS.readBinFile "/proc/self/environ" catch _ => pure .empty
  let text := (String.fromUTF8? bytes).getD ""
  return (Text.splitOn '\x00' text.toList).filterMap fun entry =>
    match entry.dropWhile (· ≠ '=') with
    | '=' :: value => some (String.ofList (entry.takeWhile (· ≠ '=')), String.ofList value)
    | _ => none

instance : Host IO where
  status path := do
    match ← attempt path (IO.FS.readBinFile path) with
    | .ok content => return some (.file content.size)
    | .error error => return if error = .isDirectory then some .directory else none
  readFile path := attempt path (IO.FS.readBinFile path)
  mapFile path := do
    return (← attempt path (IO.FS.readBinFile path)).mapError fun error =>
      if error = .isDirectory then .notMappable else error
  makeDirectory path := attempt path (IO.FS.createDir path)
  writeFile path content := attempt path (IO.FS.writeBinFile path content)
  workingDirectory := do
    try
      let path ← IO.currentDir
      return some ((Path.pieces path.toString).filter (· ≠ ""))
    catch _ => return none
  environment := environment
  standardInput := attempt "/dev/stdin" (IO.FS.readBinFile "/dev/stdin")
  write stream text := attempt "" do
    let out ← match stream with
      | .output => IO.getStdout
      | .errors => IO.getStderr
    out.putStr text
    out.flush
  clock := return (← IO.monoNanosNow) / 1000

end NeighborSearch.Program

def main (arguments : List String) : IO UInt32 := do
  return (← NeighborSearch.Command.run arguments).toUInt32
