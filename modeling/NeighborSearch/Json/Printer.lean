import NeighborSearch.Decimal.Shortest
import NeighborSearch.Json.Basic

/-!
# Writing JSON

`compact` writes a value without blanks, `pretty` writes each item and each member on a line of its
own, indented by two blanks a level. Strings escape the quote, the backslash and the control
characters below the blank, and nothing else. Numbers that are not finite are written as `null`.
-/

namespace NeighborSearch.Json

/-- A hexadecimal digit in lower case. -/
def hexDigit (n : Nat) : Char :=
  Nat.digitChar (n % 16)

/-- A character inside a string. -/
def escapeChar (c : Char) : List Char :=
  match c with
  | '"' => ['\\', '"']
  | '\\' => ['\\', '\\']
  | '\x08' => ['\\', 'b']
  | '\t' => ['\\', 't']
  | '\n' => ['\\', 'n']
  | '\x0c' => ['\\', 'f']
  | '\r' => ['\\', 'r']
  | c =>
    if c.toNat < 0x20 then ['\\', 'u', '0', '0', hexDigit (c.toNat / 16), hexDigit c.toNat]
    else [c]

/-- A string with its quotes. -/
def quote (s : String) : List Char :=
  '"' :: s.toList.flatMap escapeChar ++ ['"']

/-- A number. -/
def Number.text : Number → List Char
  | natural n => Nat.toDigits 10 n.toNat
  | negative n => '-' :: Nat.toDigits 10 n.toInt.natAbs
  | single x => if x.isFinite then Decimal.shortestSingle x else ['n', 'u', 'l', 'l']
  | double x => if x.isFinite then Decimal.shortestDouble x else ['n', 'u', 'l', 'l']

/-- A value that has no parts. -/
def boolText (b : Bool) : List Char :=
  if b then ['t', 'r', 'u', 'e'] else ['f', 'a', 'l', 's', 'e']

mutual

/-- A value without blanks. -/
def compact : Json → List Char
  | null => ['n', 'u', 'l', 'l']
  | bool b => boolText b
  | number n => n.text
  | string s => quote s
  | array items => '[' :: compactItems items ++ [']']
  | object members => '{' :: compactMembers members ++ ['}']

/-- Items separated by commas. -/
def compactItems : List Json → List Char
  | [] => []
  | [item] => item.compact
  | item :: rest => item.compact ++ ',' :: compactItems rest

/-- Members separated by commas. -/
def compactMembers : List (String × Json) → List Char
  | [] => []
  | [(name, value)] => quote name ++ ':' :: value.compact
  | (name, value) :: rest => quote name ++ ':' :: value.compact ++ ',' :: compactMembers rest

end

/-- The start of a line at a level. -/
def newLine (level : Nat) : List Char :=
  '\n' :: List.replicate (2 * level) ' '

mutual

/-- A value whose first line stands at a level. -/
def prettyAt (level : Nat) : Json → List Char
  | null => ['n', 'u', 'l', 'l']
  | bool b => boolText b
  | number n => n.text
  | string s => quote s
  | array [] => ['[', ']']
  | array (item :: rest) => '[' :: prettyItems (level + 1) (item :: rest) ++ newLine level ++ [']']
  | object [] => ['{', '}']
  | object (member :: rest) =>
    '{' :: prettyMembers (level + 1) (member :: rest) ++ newLine level ++ ['}']

/-- Items on lines of their own. -/
def prettyItems (level : Nat) : List Json → List Char
  | [] => []
  | [item] => newLine level ++ item.prettyAt level
  | item :: rest => newLine level ++ item.prettyAt level ++ ',' :: prettyItems level rest

/-- Members on lines of their own. -/
def prettyMembers (level : Nat) : List (String × Json) → List Char
  | [] => []
  | [(name, value)] => newLine level ++ quote name ++ ':' :: ' ' :: value.prettyAt level
  | (name, value) :: rest =>
    newLine level ++ quote name ++ ':' :: ' ' :: value.prettyAt level
      ++ ',' :: prettyMembers level rest

end

/-- The text without blanks. -/
def toCompact (value : Json) : String :=
  String.ofList value.compact

/-- The text on several lines. -/
def toPretty (value : Json) : String :=
  String.ofList (value.prettyAt 0)

end NeighborSearch.Json
