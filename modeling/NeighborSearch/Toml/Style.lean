/-!
# Writing strings in TOML

A string is written in the first of the styles that can hold it as it is: basic, literal, multi-line
basic, multi-line literal. If none can, it is written with escapes, on several lines if it has
several. A tab fits every style, but where there are escapes it is written as one. A string with a
newline starts on a line of its own.
-/

namespace NeighborSearch.Toml

/-- The ways to delimit a string. -/
inductive Style where
  | basic
  | literal
  | multiBasic
  | multiLiteral
deriving DecidableEq, Repr

/-- Whether a character stands in a string only as an escape: the control characters, except for
the newline and the tab. -/
def needsCode (c : Char) : Bool :=
  (decide (c.toNat < 0x20) && c != '\n' && c != '\t') || c == '\x7f'

/-- The length of the longest run of a character in a text, `run` of which stand before it. -/
def longestRun (c : Char) : (run : Nat) → List Char → Nat
  | run, [] => run
  | run, d :: rest => if d = c then longestRun c (run + 1) rest else max run (longestRun c 0 rest)

/-- The number of quotes in a row that a multi-line string can hold as they are. -/
def greatestRun : Nat := 2

namespace Style

/-- Whether a style can hold a text without escapes, those of tabs aside. -/
def holds (style : Style) (s : List Char) : Bool :=
  !s.any needsCode &&
    match style with
    | basic => !s.contains '"' && !s.contains '\\' && !s.contains '\n'
    | literal => !s.contains '\'' && !s.contains '\n'
    | multiBasic => decide (longestRun '"' 0 s ≤ greatestRun) && !s.contains '\\'
    | multiLiteral => decide (longestRun '\'' 0 s ≤ greatestRun)

/-- The style in which a text is written. -/
def choose (s : List Char) : Style :=
  match [basic, literal, multiBasic, multiLiteral].find? (·.holds s) with
  | some style => style
  | none => if s.contains '\n' then multiBasic else basic

/-- The characters on each side of a text. -/
def delimiter : Style → List Char
  | basic => ['"']
  | literal => ['\'']
  | multiBasic => ['"', '"', '"']
  | multiLiteral => ['\'', '\'', '\'']

/-- Whether a style may hold newlines as they are. -/
def isMulti : Style → Bool
  | basic | literal => false
  | multiBasic | multiLiteral => true

/-- Whether a style has escapes. -/
def hasEscapes : Style → Bool
  | basic | multiBasic => true
  | literal | multiLiteral => false

end Style

/-- A hexadecimal digit in upper case. -/
def hexDigit (n : Nat) : Char :=
  (Nat.digitChar (n % 16)).toUpper

/-- A character other than the quote in a string with escapes. -/
def escapeChar (c : Char) : List Char :=
  match c with
  | '\\' => ['\\', '\\']
  | '\x08' => ['\\', 'b']
  | '\t' => ['\\', 't']
  | '\n' => ['\\', 'n']
  | '\x0c' => ['\\', 'f']
  | '\r' => ['\\', 'r']
  | c =>
    if needsCode c then ['\\', 'u', '0', '0', hexDigit (c.toNat / 16), hexDigit c.toNat] else [c]

/-- A text with escapes, after `run` quotes. A multi-line string keeps newlines and short runs of
quotes as they are. -/
def escape (multi : Bool) : (run : Nat) → List Char → List Char
  | _, [] => []
  | run, c :: rest =>
    if c = '"' then
      if multi ∧ run < greatestRun then c :: escape multi (run + 1) rest
      else '\\' :: '"' :: escape multi 0 rest
    else if multi ∧ c = '\n' then c :: escape multi 0 rest
    else escapeChar c ++ escape multi 0 rest

/-- A text in a style. -/
def Style.write (style : Style) (s : List Char) : List Char :=
  let start := if style.isMulti ∧ s.contains '\n' then ['\n'] else []
  let body := if style.hasEscapes then escape style.isMulti 0 s else s
  style.delimiter ++ start ++ body ++ style.delimiter

/-- A string as it is written. -/
def quote (s : String) : List Char :=
  (Style.choose s.toList).write s.toList

end NeighborSearch.Toml
