import NeighborSearch.Toml.Scalar
import NeighborSearch.Toml.Text
import NeighborSearch.Toml.Tree

/-!
# Reading TOML documents

A document is a sequence of lines: names with values, headers of tables, comments, and blank lines.
Values may go over several lines. The dialect limits the number of arrays and inline tables inside
each other and the number of parts of a dotted name.
-/

namespace NeighborSearch.Toml

open Config (Value)

/-- Leaves out blanks within a line. -/
def skipBlanks (s : List Char) : List Char :=
  s.dropWhile isBlank

/-! ## Names -/

/-- Whether a character may stand in a name without quotes. -/
def isBare (c : Char) : Bool :=
  c.isAlphanum || c == '_' || c == '-'

/-- Reads a part of a name. -/
def readPart (dialect : Dialect) (s : List Char) : Option (String × List Char) :=
  match s with
  | '"' :: rest =>
    (readBasic dialect.edition rest).map fun (text, rest) => (String.ofList text, rest)
  | '\'' :: rest => (readLiteral rest).map fun (text, rest) => (String.ofList text, rest)
  | s =>
    match s.takeWhile isBare with
    | [] => none
    | name => some (String.ofList name, s.dropWhile isBare)

/-- Reads the parts of a dotted name with the blanks around them; `fuel` bounds their number. -/
def readParts (dialect : Dialect) : (fuel : Nat) → List Char → Option (List String × List Char)
  | 0, _ => none
  | fuel + 1, s =>
    match readPart dialect (skipBlanks s) with
    | none => none
    | some (part, rest) =>
      match skipBlanks rest with
      | '.' :: rest => (readParts dialect fuel rest).map fun (parts, rest) => (part :: parts, rest)
      | rest => some ([part], rest)

/-- Reads a name: the way to it, its last part, and what follows it. -/
def readName (dialect : Dialect) (s : List Char) : Option (List String × String × List Char) :=
  match readParts dialect dialect.depth s with
  | some (parts, rest) => parts.getLast?.map fun last => (parts.dropLast, last, rest)
  | none => none

/-! ## Blank space -/

/-- Leaves out a comment. -/
def skipComment (s : List Char) : List Char :=
  match s with
  | '#' :: rest => rest.dropWhile isText
  | s => s

/-- Leaves out a newline; there must be one. -/
def dropNewline? : List Char → Option (List Char)
  | '\n' :: rest => some rest
  | '\r' :: '\n' :: rest => some rest
  | _ => none

/-- Leaves out blanks, comments and newlines; `fuel` bounds the number of lines. -/
def skipLines : (fuel : Nat) → List Char → List Char
  | 0, s => s
  | fuel + 1, s =>
    let rest := skipComment (skipBlanks s)
    match dropNewline? rest with
    | some rest => skipLines fuel rest
    | none => rest

/-- Leaves out what may stand between the parts of an inline table: blanks, and in TOML 1.1 comments
and newlines too. -/
def skipInline (dialect : Dialect) (fuel : Nat) (s : List Char) : List Char :=
  match dialect.edition with
  | .v10 => skipBlanks s
  | .v11 => skipLines fuel s

/-! ## Values -/

mutual

/-- Reads a value and gives what follows it. `depth` is the number of arrays and inline tables that
may still be opened, and `fuel` bounds the number of steps. -/
def readValue (dialect : Dialect) : (depth fuel : Nat) → List Char → Option (Value × List Char)
  | _, 0, _ => none
  | depth, fuel + 1, s =>
    match s with
    | '[' :: rest =>
      match depth with
      | 0 => none
      | depth + 1 =>
        (readItems dialect depth fuel rest).map fun (items, rest) => (.array items, rest)
    | '{' :: rest =>
      match depth with
      | 0 => none
      | depth + 1 =>
        match skipInline dialect fuel rest with
        | '}' :: rest => some (.table [], rest)
        | rest =>
          (readMembers dialect depth fuel [] rest).map fun (entries, rest) =>
            (.table (Tree.toEntries entries), rest)
    | c :: rest =>
      if c = '"' ∨ c = '\'' then
        (readString dialect (c :: rest)).map fun (text, rest) =>
          (.string (String.ofList text), rest)
      else readScalar dialect (c :: rest)
    | [] => none

/-- Reads the items of an array up to its closing bracket. -/
def readItems (dialect : Dialect) : (depth fuel : Nat) → List Char →
    Option (List Value × List Char)
  | _, 0, _ => none
  | depth, fuel + 1, s =>
    match skipLines fuel s with
    | ']' :: rest => some ([], rest)
    | s =>
      match readValue dialect depth fuel s with
      | none => none
      | some (item, rest) =>
        match skipLines fuel rest with
        | ',' :: rest =>
          (readItems dialect depth fuel rest).map fun (items, rest) => (item :: items, rest)
        | ']' :: rest => some ([item], rest)
        | _ => none

/-- Reads the members of an inline table up to its closing brace, and adds them to those read
before. Only TOML 1.1 has a comma after the last one. -/
def readMembers (dialect : Dialect) : (depth fuel : Nat) → Tree.Entries → List Char →
    Option (Tree.Entries × List Char)
  | _, 0, _, _ => none
  | depth, fuel + 1, entries, s =>
    match readEntry dialect depth fuel entries s with
    | none => none
    | some (entries, rest) =>
      match skipInline dialect fuel rest with
      | '}' :: rest => some (entries, rest)
      | ',' :: rest =>
        match skipInline dialect fuel rest with
        | '}' :: rest => if dialect.edition = .v11 then some (entries, rest) else none
        | rest => readMembers dialect depth fuel entries rest
      | _ => none

/-- Reads a name with its value, and adds it to entries. -/
def readEntry (dialect : Dialect) : (depth fuel : Nat) → Tree.Entries → List Char →
    Option (Tree.Entries × List Char)
  | _, 0, _, _ => none
  | depth, fuel + 1, entries, s =>
    match readName dialect s with
    | none => none
    | some (way, name, rest) =>
      match skipInline dialect fuel rest with
      | '=' :: rest =>
        match readValue dialect depth fuel (skipInline dialect fuel rest) with
        | some (value, rest) =>
          (Tree.insert entries way name value).map fun entries => (entries, rest)
        | none => none
      | _ => none

end

/-! ## Lines -/

/-- The table that lines are added to, by its way, and all tables so far. -/
structure Document where
  current : List String := []
  root : Tree.Entries := []

namespace Document

/-- Opens the table of a header. -/
def openHeader (document : Document) (several : Bool) (way : List String) (name : String) :
    Option Document :=
  let opened := if several then Tree.openNext name else Tree.openTable name
  (Tree.change opened document.root way).map fun root => ⟨way ++ [name], root⟩

/-- Reads a header after its opening bracket. -/
def readHeader (dialect : Dialect) (document : Document) (s : List Char) :
    Option (Document × List Char) :=
  let several := s.head? == some '['
  let s := if several then s.tail else s
  match readName dialect s with
  | some (way, name, rest) =>
    let rest := if several then (match rest with
      | ']' :: ']' :: rest => some rest
      | _ => none)
    else (match rest with
      | ']' :: rest => some rest
      | _ => none)
    match rest, document.openHeader several way name with
    | some rest, some document => some (document, rest)
    | _, _ => none
  | none => none

/-- Reads a name with its value, and adds it to the current table. -/
def readEntry (dialect : Dialect) (document : Document) (s : List Char) :
    Option (Document × List Char) :=
  match readName dialect s with
  | some (way, name, '=' :: rest) =>
    match readValue dialect dialect.depth (2 * rest.length + 2) (skipBlanks rest) with
    | some (value, rest) =>
      (Tree.change (fun entries => Tree.insert entries way name value) document.root
        document.current).map fun root => ({ document with root }, rest)
    | none => none
  | _ => none

/-- Reads what a line says, if it says anything. -/
def readLine (dialect : Dialect) (document : Document) (s : List Char) :
    Option (Document × List Char) :=
  match s with
  | [] => some (document, [])
  | c :: rest =>
    if c = '#' ∨ c = '\n' ∨ c = '\r' then some (document, s)
    else if c = '[' then document.readHeader dialect rest
    else document.readEntry dialect s

/-- Reads lines up to the end; `fuel` bounds their number. -/
def readLines (dialect : Dialect) : (fuel : Nat) → Document → List Char → Option Document
  | 0, _, _ => none
  | fuel + 1, document, s =>
    match document.readLine dialect (skipBlanks s) with
    | none => none
    | some (document, rest) =>
      match skipComment (skipBlanks rest) with
      | [] => some document
      | rest =>
        match dropNewline? rest with
        | some rest => readLines dialect fuel document rest
        | none => none

end Document

/-- Leaves out a byte-order mark. -/
def dropMark : List Char → List Char
  | '\ufeff' :: rest => rest
  | s => s

/-- The table of a document, if it is one in a dialect. -/
def read? (dialect : Dialect) (text : String) : Option Config.Entries :=
  let s := dropMark text.toList
  (Document.readLines dialect (s.length + 1) {} s).map fun document =>
    Tree.toEntries document.root

end NeighborSearch.Toml
