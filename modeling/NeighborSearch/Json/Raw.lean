import NeighborSearch.Json.Number
import NeighborSearch.Text.Hex

/-!
# Reading the structure of JSON

`RawJson` is a JSON text with its structure known and its strings and numbers still as written. Who
reads a value then decides which parts matter: a string whose escapes name no character, or a
number beyond the doubles, is harmless where nobody looks at it.
-/

namespace NeighborSearch

/-- A JSON value as it is written. Strings are the characters between the quotes. -/
inductive RawJson where
  | null
  | bool (b : Bool)
  | number (n : Json.Numeral)
  | string (inner : List Char)
  | array (items : List RawJson)
  | object (members : List (List Char × RawJson))

namespace RawJson

/-- The characters that may stand between the parts of a JSON text. -/
def isBlank (c : Char) : Bool :=
  c == ' ' || c == '\n' || c == '\t' || c == '\r'

/-- Leaves out blanks. -/
def skipBlanks (s : List Char) : List Char :=
  s.dropWhile isBlank

/-- The value of four hexadecimal digits. -/
def hexWord? (a b c d : Char) : Option Nat :=
  Text.hexNumber? 0 [a, b, c, d]

/-- The character of an escape of one letter. -/
def simpleEscape? (c : Char) : Option Char :=
  match c with
  | '"' => some '"'
  | '\\' => some '\\'
  | '/' => some '/'
  | 'b' => some '\x08'
  | 'f' => some '\x0c'
  | 'n' => some '\n'
  | 'r' => some '\r'
  | 't' => some '\t'
  | _ => none

/-- Reads up to the closing quote. Escapes have to be complete; control characters are refused. -/
def scanString : List Char → Option (List Char × List Char)
  | [] => none
  | '"' :: rest => some ([], rest)
  | '\\' :: 'u' :: a :: b :: c :: d :: rest =>
    match hexWord? a b c d, scanString rest with
    | some _, some (inner, rest) => some ('\\' :: 'u' :: a :: b :: c :: d :: inner, rest)
    | _, _ => none
  | '\\' :: c :: rest =>
    match simpleEscape? c, scanString rest with
    | some _, some (inner, rest) => some ('\\' :: c :: inner, rest)
    | _, _ => none
  | c :: rest =>
    if c.toNat < 0x20 ∨ c = '\\' then none
    else match scanString rest with
      | some (inner, rest) => some (c :: inner, rest)
      | none => none

/-- The characters that a string stands for. An escape of a surrogate counts only together with the
other half of its pair. -/
def unescape : List Char → Option (List Char)
  | [] => some []
  | '\\' :: 'u' :: a :: b :: c :: d :: '\\' :: 'u' :: e :: f :: g :: h :: rest =>
    match hexWord? a b c d, hexWord? e f g h with
    | some high, some low =>
      if 0xD800 ≤ high ∧ high < 0xDC00 then
        if 0xDC00 ≤ low ∧ low < 0xE000 then
          (unescape rest).map
            (Char.ofNat (0x10000 + (high - 0xD800) * 0x400 + (low - 0xDC00)) :: ·)
        else none
      else if 0xDC00 ≤ high ∧ high < 0xE000 then none
      else (unescape ('\\' :: 'u' :: e :: f :: g :: h :: rest)).map (Char.ofNat high :: ·)
    | _, _ => none
  | '\\' :: 'u' :: a :: b :: c :: d :: rest =>
    match hexWord? a b c d with
    | some n =>
      if 0xD800 ≤ n ∧ n < 0xE000 then none else (unescape rest).map (Char.ofNat n :: ·)
    | none => none
  | '\\' :: c :: rest =>
    match simpleEscape? c with
    | some c => (unescape rest).map (c :: ·)
    | none => none
  | c :: rest => (unescape rest).map (c :: ·)

/-- Reads digits; at least one is needed. -/
def scanDigits (s : List Char) : Option (List Char × List Char) :=
  match s.takeWhile Char.isDigit with
  | [] => none
  | digits => some (digits, s.dropWhile Char.isDigit)

/-- Reads the digits before the point. A leading zero stands alone. -/
def scanWhole (s : List Char) : Option (List Char × List Char) :=
  match s with
  | '0' :: rest => if rest.head?.any Char.isDigit then none else some (['0'], rest)
  | s => scanDigits s

/-- Reads the point and the digits after it, if there is a point. -/
def scanFraction (s : List Char) : Option (List Char × List Char) :=
  match s with
  | '.' :: rest => scanDigits rest
  | s => some ([], s)

/-- Reads the sign of a power of ten. -/
def scanPowerSign (s : List Char) : Bool × List Char :=
  match s with
  | '-' :: rest => (true, rest)
  | '+' :: rest => (false, rest)
  | s => (false, s)

/-- Reads the power of ten, if there is one. -/
def scanPower (s : List Char) : Option (Option (Bool × List Char) × List Char) :=
  match s with
  | c :: rest =>
    if c = 'e' ∨ c = 'E' then
      let (negative, rest) := scanPowerSign rest
      (scanDigits rest).map fun (digits, rest) => (some (negative, digits), rest)
    else some (none, s)
  | [] => some (none, [])

/-- Reads a number. -/
def scanNumeral (s : List Char) : Option (Json.Numeral × List Char) := do
  let (negative, s) := match s with
    | '-' :: rest => (true, rest)
    | s => (false, s)
  let (whole, s) ← scanWhole s
  let (fraction, s) ← scanFraction s
  let (power, s) ← scanPower s
  return (⟨negative, whole, fraction, power⟩, s)

/-- Reads a value that starts with a letter. -/
def scanWord (s : List Char) : Option (RawJson × List Char) :=
  match s with
  | 'n' :: 'u' :: 'l' :: 'l' :: rest => some (null, rest)
  | 't' :: 'r' :: 'u' :: 'e' :: rest => some (bool true, rest)
  | 'f' :: 'a' :: 'l' :: 's' :: 'e' :: rest => some (bool false, rest)
  | _ => none

mutual

/-- Reads a value and what follows it; `fuel` bounds the number of steps. -/
def scanValue : (fuel : Nat) → List Char → Option (RawJson × List Char)
  | 0, _ => none
  | fuel + 1, s =>
    match skipBlanks s with
    | '"' :: rest => (scanString rest).map fun (inner, rest) => (string inner, rest)
    | '[' :: rest =>
      match skipBlanks rest with
      | ']' :: rest => some (array [], rest)
      | rest => (scanItems fuel rest).map fun (items, rest) => (array items, rest)
    | '{' :: rest =>
      match skipBlanks rest with
      | '}' :: rest => some (object [], rest)
      | rest => (scanMembers fuel rest).map fun (members, rest) => (object members, rest)
    | c :: rest =>
      if c = '-' ∨ c.isDigit then (scanNumeral (c :: rest)).map fun (n, rest) => (number n, rest)
      else scanWord (c :: rest)
    | [] => none

/-- Reads items up to the closing bracket. -/
def scanItems : (fuel : Nat) → List Char → Option (List RawJson × List Char)
  | 0, _ => none
  | fuel + 1, s =>
    match scanValue fuel s with
    | none => none
    | some (item, rest) =>
      match skipBlanks rest with
      | ']' :: rest => some ([item], rest)
      | ',' :: rest => (scanItems fuel rest).map fun (items, rest) => (item :: items, rest)
      | _ => none

/-- Reads members up to the closing brace. -/
def scanMembers : (fuel : Nat) → List Char → Option (List (List Char × RawJson) × List Char)
  | 0, _ => none
  | fuel + 1, s =>
    match scanMember fuel s with
    | none => none
    | some (member, rest) =>
      match skipBlanks rest with
      | '}' :: rest => some ([member], rest)
      | ',' :: rest => (scanMembers fuel rest).map fun (members, rest) => (member :: members, rest)
      | _ => none

/-- Reads a name, a colon and a value. -/
def scanMember : (fuel : Nat) → List Char → Option ((List Char × RawJson) × List Char)
  | 0, _ => none
  | fuel + 1, s =>
    match skipBlanks s with
    | '"' :: rest =>
      match scanString rest with
      | none => none
      | some (name, rest) =>
        match skipBlanks rest with
        | ':' :: rest => (scanValue fuel rest).map fun (value, rest) => ((name, value), rest)
        | _ => none
    | _ => none

end

/-- Reads a text that holds one value and nothing else but blanks. -/
def parse? (text : String) : Option RawJson :=
  match scanValue (3 * text.length + 3) text.toList with
  | some (value, rest) => if skipBlanks rest = [] then some value else none
  | none => none

end RawJson

end NeighborSearch
