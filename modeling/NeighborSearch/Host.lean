import NeighborSearch.Error.FileError
import NeighborSearch.Host.Path

/-!
# The host of a program

What the program asks of the machine it runs on: files, the working directory, the environment,
the standard streams and a clock. Everything above this module is written for any host; the
`Machine` is one that lives in memory.
-/

namespace NeighborSearch

/-- What stands at a path. -/
inductive FileStatus where
  | file (size : Nat)
  | directory
  /-- Something that is neither a regular file nor a directory. -/
  | special
deriving DecidableEq, Repr

/-- The streams that a program writes to. -/
inductive Stream where
  | output
  | errors
deriving DecidableEq, Repr

/-- A machine that programs in the monad `m` run on. -/
class Host (m : Type → Type) where
  /-- What stands at a path, if anything does. -/
  status : String → m (Option FileStatus)
  /-- The whole content of a file, by reading it. -/
  readFile : String → m (Except FileError ByteArray)
  /-- The whole content of a file, by mapping it into memory. -/
  mapFile : String → m (Except FileError ByteArray)
  /-- Makes a single directory. -/
  makeDirectory : String → m (Except FileError Unit)
  /-- Writes a file, which need not exist, in place of its old content. -/
  writeFile : String → ByteArray → m (Except FileError Unit)
  /-- The names on the way from the root to the working directory. -/
  workingDirectory : m (Option (List String))
  /-- The environment variables, in order. -/
  environment : m (List (String × String))
  /-- Everything on the standard input. -/
  standardInput : m (Except FileError ByteArray)
  /-- Writes text at the end of a stream. -/
  write : Stream → String → m (Except FileError Unit)
  /-- A time in microseconds. -/
  clock : m Nat

namespace Host

variable {m : Type → Type} [Monad m] [Host m]

/-- Whether a directory stands at a path. -/
def isDirectory (path : String) : m Bool := do
  return (← status path) matches some .directory

/-- Whether a regular file stands at a path. -/
def isFile (path : String) : m Bool := do
  return (← status path) matches some (.file _)

/-- The text of a file. -/
def readText (path : String) : m (Except FileError String) := do
  return (← readFile path).bind fun bytes =>
    match String.fromUTF8? bytes with
    | some text => .ok text
    | none => .error .notText

/-- The text on the standard input. -/
def inputText : m (Except FileError String) := do
  return (← standardInput).bind fun bytes =>
    match String.fromUTF8? bytes with
    | some text => .ok text
    | none => .error .notText

/-- Makes a directory and those above it that are missing; `depth` bounds their number. -/
def makeDirectoriesWithin : (depth : Nat) → String → m (Except FileError Unit)
  | 0, _ => return .ok ()
  | depth + 1, path => do
    if path = "" then return .ok ()
    match ← makeDirectory path with
    | .ok () => return .ok ()
    | .error error =>
      if error = .missing then
        match Path.parent? path with
        | none => return .error error
        | some above =>
          match ← makeDirectoriesWithin depth above with
          | .error error => return .error error
          | .ok () => makeUnlessDirectory path
      else if ← isDirectory path then return .ok ()
      else return .error error
where
  /-- Makes a single directory, which may exist by now. -/
  makeUnlessDirectory (path : String) : m (Except FileError Unit) := do
    match ← makeDirectory path with
    | .ok () => return .ok ()
    | .error error => if ← isDirectory path then return .ok () else return .error error

/-- Makes a directory and those above it that are missing. -/
def makeDirectories (path : String) : m (Except FileError Unit) :=
  makeDirectoriesWithin (path.length + 1) path

/-- A program that keeps a state of its own runs on the host below it. -/
instance {σ : Type} : Host (StateT σ m) where
  status path := (status path : m _)
  readFile path := (readFile path : m _)
  mapFile path := (mapFile path : m _)
  makeDirectory path := (makeDirectory path : m _)
  writeFile path content := (writeFile path content : m _)
  workingDirectory := (workingDirectory : m _)
  environment := (environment : m _)
  standardInput := (standardInput : m _)
  write stream text := (write stream text : m _)
  clock := (clock : m _)

end Host

end NeighborSearch
