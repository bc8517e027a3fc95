import NeighborSearch.Text.Hex
import NeighborSearch.Toml.Dialect

/-!
# Reading strings in TOML

Each function reads what follows an opening delimiter, up to the closing one, and gives the text and
what comes after. In strings over several lines a newline right after the opening delimiter is left
out, one or two quotes may stand before the closing delimiter, and the dialect says how a carriage
return before a line feed is read.
-/

namespace NeighborSearch.Toml

/-- Whether a character is a blank within a line. -/
def isBlank (c : Char) : Bool :=
  c == ' ' || c == '\t'

/-- Whether a character may stand in comments and strings: anything but the control characters,
except for the tab. -/
def isText (c : Char) : Bool :=
  (decide (0x20 ≤ c.toNat) && c != '\x7f') || c == '\t'

/-- The character of an escape of one letter. -/
def simpleEscape? (edition : Edition) (c : Char) : Option Char :=
  match c with
  | '"' => some '"'
  | '\\' => some '\\'
  | 'b' => some '\x08'
  | 'f' => some '\x0c'
  | 'n' => some '\n'
  | 'r' => some '\r'
  | 't' => some '\t'
  | 'e' => if edition = .v11 then some '\x1b' else none
  | _ => none

/-- The character of an escape of two digits. -/
def byteEscape? (edition : Edition) (a b : Char) : Option Char :=
  if edition = .v11 then Text.hexChar? [a, b] else none

/-- Text read so far, and what comes after. -/
abbrev Reading := Option (List Char × List Char)

/-- Puts characters in front of the text read. -/
def Reading.append (front : List Char) (reading : Reading) : Reading :=
  reading.map fun (text, rest) => (front ++ text, rest)

/-- Puts a character in front of the text read. -/
def Reading.cons (c : Char) (reading : Reading) : Reading :=
  reading.append [c]

/-- Reads a basic string. -/
def readBasic (edition : Edition) : List Char → Reading
  | [] => none
  | '"' :: rest => some ([], rest)
  | '\\' :: 'u' :: a :: b :: c :: d :: rest =>
    match Text.hexChar? [a, b, c, d] with
    | some x => (readBasic edition rest).cons x
    | none => none
  | '\\' :: 'U' :: a :: b :: c :: d :: e :: f :: g :: h :: rest =>
    match Text.hexChar? [a, b, c, d, e, f, g, h] with
    | some x => (readBasic edition rest).cons x
    | none => none
  | '\\' :: 'x' :: a :: b :: rest =>
    match byteEscape? edition a b with
    | some x => (readBasic edition rest).cons x
    | none => none
  | '\\' :: c :: rest =>
    match simpleEscape? edition c with
    | some x => (readBasic edition rest).cons x
    | none => none
  | c :: rest => if isText c ∧ c ≠ '\\' then (readBasic edition rest).cons c else none

/-- Reads a literal string. -/
def readLiteral : List Char → Reading
  | [] => none
  | '\'' :: rest => some ([], rest)
  | c :: rest => if isText c then (readLiteral rest).cons c else none

/-- Whether the rest of a line is blank. -/
def endsLine (s : List Char) : Bool :=
  match s.dropWhile isBlank with
  | '\n' :: _ => true
  | '\r' :: '\n' :: _ => true
  | _ => false

/-- What follows a closing delimiter of three quotes: at most two more quotes belong to the text. -/
def closeRun (quote : Char) (rest : List Char) : List Char × List Char :=
  match rest with
  | a :: b :: more =>
    if a = quote then
      if b = quote then ([quote, quote], more) else ([quote], b :: more)
    else ([], rest)
  | [a] => if a = quote then ([quote], []) else ([], rest)
  | [] => ([], [])

/-- Reads a basic string of several lines. After a backslash at the end of a line, blanks and
newlines are skipped. -/
def readMultiBasic (dialect : Dialect) : (skipping : Bool) → List Char → Reading
  | _, [] => none
  | _, '"' :: '"' :: '"' :: rest => some (closeRun '"' rest)
  | _, '\\' :: 'u' :: a :: b :: c :: d :: rest =>
    match Text.hexChar? [a, b, c, d] with
    | some x => (readMultiBasic dialect false rest).cons x
    | none => none
  | _, '\\' :: 'U' :: a :: b :: c :: d :: e :: f :: g :: h :: rest =>
    match Text.hexChar? [a, b, c, d, e, f, g, h] with
    | some x => (readMultiBasic dialect false rest).cons x
    | none => none
  | _, '\\' :: 'x' :: a :: b :: rest =>
    match byteEscape? dialect.edition a b with
    | some x => (readMultiBasic dialect false rest).cons x
    | none => none
  | _, '\\' :: c :: rest =>
    match simpleEscape? dialect.edition c with
    | some x => (readMultiBasic dialect false rest).cons x
    | none => if endsLine (c :: rest) then readMultiBasic dialect true (c :: rest) else none
  | skipping, '\r' :: '\n' :: rest =>
    if skipping then readMultiBasic dialect true rest
    else (readMultiBasic dialect false rest).append dialect.newline
  | skipping, c :: rest =>
    if skipping ∧ (isBlank c ∨ c = '\n') then readMultiBasic dialect true rest
    else if (isText c ∨ c = '\n') ∧ c ≠ '\\' then (readMultiBasic dialect false rest).cons c
    else none

/-- Reads a literal string of several lines. -/
def readMultiLiteral (dialect : Dialect) : List Char → Reading
  | [] => none
  | '\'' :: '\'' :: '\'' :: rest => some (closeRun '\'' rest)
  | '\r' :: '\n' :: rest => (readMultiLiteral dialect rest).append dialect.newline
  | c :: rest => if isText c ∨ c = '\n' then (readMultiLiteral dialect rest).cons c else none

/-- Leaves out a newline at the start. -/
def dropNewline : List Char → List Char
  | '\n' :: rest => rest
  | '\r' :: '\n' :: rest => rest
  | s => s

/-- Reads a string in any style, from its opening delimiter on. -/
def readString (dialect : Dialect) : List Char → Reading
  | '"' :: '"' :: '"' :: rest => readMultiBasic dialect false (dropNewline rest)
  | '"' :: rest => readBasic dialect.edition rest
  | '\'' :: '\'' :: '\'' :: rest => readMultiLiteral dialect (dropNewline rest)
  | '\'' :: rest => readLiteral rest
  | _ => none

end NeighborSearch.Toml
