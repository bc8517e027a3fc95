import NeighborSearch.Text.Split

/-!
# Paths

A path is text: names separated by slashes. Repeated slashes and single dots say nothing, so paths
are compared and taken apart by their `parts`; the text itself is kept, because it is shown to the
user. Paths that are not UTF-8 are left out, and with them the failure of writing settings that hold
such a path.
-/

namespace NeighborSearch.Path

/-- A part of a path. -/
inductive Part where
  /-- The root directory. -/
  | root
  /-- The current directory, written as a dot at the start. -/
  | current
  /-- The directory above. -/
  | up
  | name (text : String)
deriving DecidableEq, Repr

/-- The pieces of a path between its slashes. -/
def pieces (path : String) : List String :=
  (Text.splitOn '/' path.toList).map String.ofList

/-- Whether a path starts at the root. -/
def isAbsolute (path : String) : Bool :=
  path.toList.head? == some '/'

/-- The part a piece stands for, if it says anything. -/
def partOfPiece (piece : String) : Option Part :=
  if piece = "" ∨ piece = "." then none
  else if piece = ".." then some .up
  else some (.name piece)

/-- The parts of a path in order. -/
def parts (path : String) : List Part :=
  let named := (pieces path).filterMap partOfPiece
  if isAbsolute path then .root :: named
  else if (pieces path).head? = some "." then .current :: named
  else named

/-- A path inside a directory. An absolute path stands for itself. -/
def join (directory path : String) : String :=
  if isAbsolute path then path
  else if directory = "" ∨ directory.toList.getLast? = some '/' then directory ++ path
  else directory ++ "/" ++ path

/-- Drops the pieces at the end of reversed text that say nothing: slashes, and single dots that
stand alone after a slash. -/
def dropSilent : List Char → List Char
  | '/' :: rest => dropSilent rest
  | ['.'] => ['.']
  | '.' :: '/' :: rest => dropSilent rest
  | text => text

/-- The text of a path without its last part and the silent pieces before it. -/
def withoutLast (path : String) : String :=
  let body := dropSilent path.toList.reverse
  let start := body.dropWhile (· ≠ '/')
  match dropSilent start with
  | [] => if start.isEmpty then "" else "/"
  | rest => String.ofList rest.reverse

/-- The path without its last part, if that is not the root. -/
def parent? (path : String) : Option String :=
  match (parts path).getLast? with
  | none => none
  | some .root => none
  | some _ => some (withoutLast path)

/-- The absolute path of a directory given by the names on the way from the root. -/
def ofNames (names : List String) : String :=
  "/" ++ "/".intercalate names

/-- A directory given by its names, followed by the directories above it, nearest first. -/
def ancestors (names : List String) : List (List String) :=
  (List.range (names.length + 1)).reverse.map names.take

end NeighborSearch.Path
