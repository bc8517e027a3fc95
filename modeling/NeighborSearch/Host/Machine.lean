import NeighborSearch.Host
import NeighborSearch.Named

/-!
# A machine in memory

A tree of files together with a working directory, an environment, the standard streams and a
time. Paths are resolved name by name, as an operating system does it, and failures carry its error
numbers.
-/

namespace NeighborSearch

/-- A file or a directory with everything in it. -/
inductive Node where
  | file (content : ByteArray)
  | directory (entries : List (String × Node))

namespace Node

/-- The node at the end of a way down. -/
def find? : Node → List String → Option Node
  | node, [] => some node
  | file _, _ :: _ => none
  | directory entries, name :: names =>
    match entries.lookup name with
    | none => none
    | some node => node.find? names

/-- Puts a node at the end of a way down whose directories exist. -/
def put : Node → List String → Node → Node
  | _, [], new => new
  | file content, _ :: _, _ => file content
  | directory entries, name :: names, new =>
    match names, entries.lookup name with
    | [], _ => directory (Named.put entries name new)
    | _ :: _, none => directory entries
    | _ :: _, some node => directory (Named.put entries name (node.put names new))

end Node

/-- The largest number of bytes of a name. -/
def longestName : Nat := 255

/-- The largest number of bytes of a path. -/
def longestPath : Nat := 4095

/-- Where a path leads. -/
structure Location where
  /-- The way to the directory that holds the last name. -/
  directory : List String
  /-- The last name, if the path ends with one. -/
  name : Option String
  /-- Whether a slash follows the last name. -/
  slashed : Bool

/-- Fails for names longer than a directory can hold. -/
def checkName (name : String) : Except FileError Unit :=
  if longestName < name.utf8ByteSize then .error .nameTooLong else .ok ()

/-- The way to where a path leads. -/
def Location.names (place : Location) : Except FileError (List String) := do
  match place.name with
  | none => return place.directory
  | some name =>
    checkName name
    return place.directory ++ [name]

/-- A machine in memory. -/
structure Machine where
  root : Node
  workingDirectory : List String
  environment : List (String × String) := []
  input : ByteArray := .empty
  /-- Everything written to each stream. -/
  written : Stream → String := fun _ => ""
  /-- The failure of every attempt to write to a stream, if the streams are broken. -/
  broken : Option FileError := none
  time : Nat := 0

namespace Machine

/-- Goes from a directory through one piece of a path into a directory. -/
def enter (root : Node) (directory : List String) (piece : String) :
    Except FileError (List String) := do
  if piece = "" ∨ piece = "." then return directory
  if piece = ".." then return directory.dropLast
  checkName piece
  match root.find? (directory ++ [piece]) with
  | none => .error .missing
  | some (.file _) => .error .notDirectory
  | some (.directory _) => return directory ++ [piece]

/-- Follows a path up to its last name, which is not looked at. -/
def locate (root : Node) (start : List String) (path : String) : Except FileError Location := do
  if path.toList.contains '\x00' then .error .nulInPath
  if longestPath < path.utf8ByteSize then .error .nameTooLong
  if path = "" then .error .missing
  let pieces := (Path.pieces path).filter (· ≠ "")
  let start := if Path.isAbsolute path then [] else start
  let slashed := path.toList.getLast? == some '/'
  let directory ← pieces.dropLast.foldlM (enter root) start
  match pieces.getLast? with
  | none => return ⟨directory, none, slashed⟩
  | some last =>
    if last = "." ∨ last = ".." then return ⟨← enter root directory last, none, slashed⟩
    return ⟨directory, some last, slashed⟩

/-- The node at a path. -/
def node (machine : Machine) (path : String) : Except FileError Node := do
  let place ← locate machine.root machine.workingDirectory path
  match machine.root.find? (← place.names) with
  | none => .error .missing
  | some (.file content) =>
    if place.slashed then .error .notDirectory else return .file content
  | some (.directory entries) => return .directory entries

/-- What stands at a path. -/
def status (machine : Machine) (path : String) : Option FileStatus :=
  match machine.node path with
  | .error _ => none
  | .ok (.file content) => some (.file content.size)
  | .ok (.directory _) => some .directory

/-- The content of a file; `refusal` is the failure for directories. -/
def content (machine : Machine) (refusal : FileError) (path : String) :
    Except FileError ByteArray := do
  match ← machine.node path with
  | .file content => return content
  | .directory _ => .error refusal

/-- The machine with a node at the end of a way down. -/
def put (machine : Machine) (names : List String) (node : Node) : Machine :=
  { machine with root := machine.root.put names node }

/-- The machine with a new directory. -/
def makeDirectory (machine : Machine) (path : String) : Except FileError Machine := do
  let place ← locate machine.root machine.workingDirectory path
  let names ← place.names
  match machine.root.find? names with
  | some _ => .error .alreadyExists
  | none => return machine.put names (.directory [])

/-- The machine with a file written. -/
def writeFile (machine : Machine) (path : String) (content : ByteArray) :
    Except FileError Machine := do
  let place ← locate machine.root machine.workingDirectory path
  if place.slashed then .error .isDirectory
  let names ← place.names
  match machine.root.find? names with
  | some (.directory _) => .error .isDirectory
  | _ => return machine.put names (.file content)

/-- The machine with text written to a stream. -/
def write (machine : Machine) (stream : Stream) (text : String) : Except FileError Machine :=
  match machine.broken with
  | some error => .error error
  | none => .ok { machine with
      written := fun s => if s = stream then machine.written s ++ text else machine.written s }

/-- Changes the machine if the change succeeds. -/
def update (change : Machine → Except FileError Machine) : StateM Machine (Except FileError Unit) :=
  fun machine =>
    match change machine with
    | .ok changed => (.ok (), changed)
    | .error error => (.error error, machine)

instance : Host (StateM Machine) where
  status path := return (← get).status path
  readFile path := return (← get).content .isDirectory path
  mapFile path := return (← get).content .notMappable path
  makeDirectory path := update fun machine => machine.makeDirectory path
  writeFile path content := update fun machine => machine.writeFile path content
  workingDirectory := return some (← get).workingDirectory
  environment := return (← get).environment
  standardInput := return .ok (← get).input
  write stream text := update fun machine => machine.write stream text
  clock := return (← get).time

end Machine

end NeighborSearch
