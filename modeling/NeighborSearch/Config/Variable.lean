import NeighborSearch.Config.Value
import NeighborSearch.Text.Blank
import NeighborSearch.Text.Hex
import NeighborSearch.Text.Split

/-!
# Configuration in environment variables

A variable whose name starts with a given word says a value: the rest of its name is the way to the
value, and its content is the value in a syntax of its own. What does not follow the syntax is a
string, so every content has a value.
-/

namespace NeighborSearch.Config.Variable

/-! ## Contents -/

/-- Leaves out blanks. -/
def skipBlanks (s : List Char) : List Char :=
  s.dropWhile Text.isAsciiBlank

/-- Whether a character ends a plain word. -/
def isSeparator (c : Char) : Bool :=
  c == ',' || c == '{' || c == '}' || c == '[' || c == ']'

/-- Whether a text is a run of decimal digits. -/
def isDigits (s : List Char) : Bool :=
  !s.isEmpty && s.all Char.isDigit

/-- The value of decimal digits. -/
def digitsValue (digits : List Char) : Nat :=
  digits.foldl (fun n c => n * 10 + (c.toNat - '0'.toNat)) 0

/-- Text without a sign at its start. -/
def dropSign : List Char → List Char
  | '+' :: rest => rest
  | '-' :: rest => rest
  | s => s

/-- Whether a text is a power of ten, if it is anything. -/
def isPower : List Char → Bool
  | [] => true
  | c :: rest => (c == 'e' || c == 'E') && isDigits (dropSign rest)

/-- Whether a word is a number with a point. There must be a digit on one side of the point. -/
def isPointed (word : List Char) : Bool :=
  let s := dropSign word
  let whole := s.takeWhile Char.isDigit
  match s.dropWhile Char.isDigit with
  | '.' :: rest =>
    (!whole.isEmpty || rest.head?.any Char.isDigit) && isPower (rest.dropWhile Char.isDigit)
  | _ => false

/-- The value of a 64-bit integer, with or without a sign. -/
def integer? (word : List Char) : Option Int :=
  let digits := dropSign word
  let n := digitsValue digits
  if !isDigits digits then none
  else if word.head? = some '-' then if n ≤ 0x8000000000000000 then some (-n) else none
  else if n < UInt64.size then some n else none

/-- The value of a plain word. -/
def plain (word : List Char) : Value :=
  if isPointed word then .float
  else match integer? word with
    | some n => .integer n
    | none => .string (String.ofList word)

/-- The character of an escape of one letter. -/
def simpleEscape? (c : Char) : Option Char :=
  match c with
  | '"' => some '"'
  | '\\' => some '\\'
  | 'b' => some '\x08'
  | 'f' => some '\x0c'
  | 'n' => some '\n'
  | 'r' => some '\r'
  | 't' => some '\t'
  | _ => none

/-- Whether a character may not stand in a quoted string as it is. -/
def isRefused (c : Char) : Bool :=
  c == '\\' || (decide (c.toNat < 0x20) && c != '\t') || c == '\x7f'

/-- Reads a quoted string from an escape or its end on, and gives what follows it. -/
def readEscaped : List Char → Option (List Char × List Char)
  | [] => none
  | '"' :: rest => some ([], rest)
  | '\\' :: 'u' :: a :: b :: c :: d :: rest =>
    match Text.hexChar? [a, b, c, d], readEscaped rest with
    | some x, some (text, rest) => some (x :: text, rest)
    | _, _ => none
  | '\\' :: 'U' :: a :: b :: c :: d :: e :: f :: g :: h :: rest =>
    match Text.hexChar? [a, b, c, d, e, f, g, h], readEscaped rest with
    | some x, some (text, rest) => some (x :: text, rest)
    | _, _ => none
  | '\\' :: c :: rest =>
    match simpleEscape? c, readEscaped rest with
    | some x, some (text, rest) => some (x :: text, rest)
    | _, _ => none
  | c :: rest =>
    if isRefused c then none
    else match readEscaped rest with
      | some (text, rest) => some (c :: text, rest)
      | none => none

/-- The characters at the start of a text that fit into a number of bytes of UTF-8. -/
def takeBytes : (room : Nat) → List Char → List Char
  | _, [] => []
  | room, c :: rest => if c.utf8Size ≤ room then c :: takeBytes (room - c.utf8Size) rest else []

/-- Reads the rest of a quoted string, and gives what follows it. If there is an escape, the text
before the first one is cut to as many bytes as it has characters. -/
def readQuoted (s : List Char) : Option (List Char × List Char) :=
  let isPlain (c : Char) : Bool := c != '"' && !isRefused c
  let text := s.takeWhile isPlain
  match s.dropWhile isPlain with
  | '"' :: rest => some (text, rest)
  | rest =>
    (readEscaped rest).map fun (more, rest) => (takeBytes text.length text ++ more, rest)

/-- Whether a character may stand in a key without quotes. -/
def isKeyChar (c : Char) : Bool :=
  c.isAlphanum || c == '_' || c == '-'

/-- Reads a key. -/
def readKey (s : List Char) : Option (String × List Char) :=
  match s with
  | '"' :: rest => (readQuoted rest).map fun (text, rest) => (String.ofList text, rest)
  | s =>
    match s.takeWhile isKeyChar with
    | [] => none
    | key => some (String.ofList key, s.dropWhile isKeyChar)

mutual

/-- Reads a value with the blanks around it, and gives what follows them; `fuel` bounds the number
of steps. -/
def readValue : (fuel : Nat) → List Char → Option (Value × List Char)
  | 0, _ => none
  | fuel + 1, s =>
    match readNext fuel (skipBlanks s) with
    | some (value, rest) => some (value, skipBlanks rest)
    | none => none

/-- Reads a value that no blanks precede. -/
def readNext : (fuel : Nat) → List Char → Option (Value × List Char)
  | 0, _ => none
  | _ + 1, 't' :: 'r' :: 'u' :: 'e' :: rest => some (.boolean true, rest)
  | _ + 1, 'f' :: 'a' :: 'l' :: 's' :: 'e' :: rest => some (.boolean false, rest)
  | fuel + 1, '[' :: rest => (readItems fuel rest).map fun (items, rest) => (.array items, rest)
  | fuel + 1, '{' :: rest =>
    (readMembers fuel [] rest).map fun (entries, rest) => (.table entries, rest)
  | _ + 1, '"' :: rest =>
    (readQuoted rest).map fun (text, rest) => (.string (String.ofList text), rest)
  | _ + 1, '\'' :: c :: '\'' :: rest => some (.string (String.singleton c), rest)
  | _ + 1, '\'' :: _ => none
  | _ + 1, s =>
    some (plain (Text.trim (s.takeWhile (!isSeparator ·))), s.dropWhile (!isSeparator ·))

/-- Reads items up to the closing bracket. -/
def readItems : (fuel : Nat) → List Char → Option (List Value × List Char)
  | 0, _ => none
  | _ + 1, ']' :: rest => some ([], rest)
  | fuel + 1, s =>
    match readValue fuel s with
    | some (item, ',' :: rest) =>
      (readItems fuel rest).map fun (items, rest) => (item :: items, rest)
    | some (item, ']' :: rest) => some ([item], rest)
    | _ => none

/-- Reads members up to the closing brace, after those read before. The last of a name counts. -/
def readMembers : (fuel : Nat) → Entries → List Char → Option (Entries × List Char)
  | 0, _, _ => none
  | _ + 1, entries, '}' :: rest => some (entries, rest)
  | fuel + 1, entries, s =>
    match readMember fuel s with
    | some (key, value, ',' :: rest) => readMembers fuel (Named.put entries key value) rest
    | some (key, value, '}' :: rest) => some (Named.put entries key value, rest)
    | _ => none

/-- Reads a key with its value. -/
def readMember : (fuel : Nat) → List Char → Option (String × Value × List Char)
  | 0, _ => none
  | fuel + 1, s =>
    match readKey (skipBlanks s) with
    | none => none
    | some (key, rest) =>
      match skipBlanks rest with
      | '=' :: rest => (readValue fuel rest).map fun (value, rest) => (key, value, rest)
      | _ => none

end

/-- The value of a content. -/
def content (text : String) : Value :=
  match readValue (4 * text.length + 4) text.toList with
  | some (value, []) => value
  | _ => .string text

/-! ## Names -/

/-- A letter in lower case. Of the letters that names of settings are made of, the Kelvin sign is
the only one with an upper case beyond ASCII. -/
def lower (c : Char) : Char :=
  if c = '\u212a' then 'k' else c.toLower

/-- Every pair of underscores becomes a point. -/
def pointed : List Char → List Char
  | '_' :: '_' :: rest => '.' :: pointed rest
  | c :: rest => c :: pointed rest
  | [] => []

/-- What follows a word at the start of a name, in either case of the letters. -/
def afterWord? : (word name : List Char) → Option (List Char)
  | [], name => some name
  | _ :: _, [] => none
  | a :: word, b :: name => if a.toLower = b.toLower then afterWord? word name else none

/-- The way that the name of a variable stands for. Blanks around the name and around what follows
the word in it do not count. A name with an empty part says nothing. -/
def way? (word : String) (name : String) : Option (List String) :=
  match afterWord? word.toList (Text.trim name.toList) with
  | none => none
  | some rest =>
    let parts := Text.splitOn '.' (pointed ((Text.trim rest).map lower))
    if parts.any List.isEmpty then none else some (parts.map String.ofList)

/-! ## Environments -/

/-- The table that the variables of an environment say together. Of two variables for one value the
later one counts. -/
def layer (word : String) (environment : List (String × String)) : Entries :=
  environment.foldl (fun entries (name, text) =>
    match way? word name with
    | none => entries
    | some way =>
      match nest way (content text) with
      | .table upper => join upper entries
      | _ => entries) []

end NeighborSearch.Config.Variable
