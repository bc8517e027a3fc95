/-!
# Command-line options

Options are written as `--name value`, `--name=value`, `-nvalue`, `-n=value` or `-n value`, and
those without a value may share one dash. An argument that starts with a dash is never the value of
the option before it, unless it is a single dash. Only lists may be given more than once.
-/

namespace NeighborSearch.Command

/-- An option of the program. -/
inductive Switch where
  | config
  | verbose
  | version
  | help
  | force
  | json
  | index
  | query
  | maxResults
  | allow
  | deny
  | normalize
deriving DecidableEq, Repr

namespace Switch

/-- The name after two dashes. -/
def name : Switch → String
  | config => "config"
  | verbose => "verbose"
  | version => "version"
  | help => "help"
  | force => "force"
  | json => "json"
  | index => "index"
  | query => "query"
  | maxResults => "max-results"
  | allow => "allow"
  | deny => "deny"
  | normalize => "normalize"

/-- The letter after one dash, if there is one. -/
def letter? : Switch → Option Char
  | config => some 'c'
  | verbose => some 'v'
  | version => some 'V'
  | help => some 'h'
  | force => some 'f'
  | query => some 'q'
  | maxResults => some 'k'
  | _ => none

/-- Whether an option has a value. -/
def hasValue : Switch → Bool
  | config | index | query | maxResults | allow | deny => true
  | _ => false

/-- Whether an option may be given more than once. -/
def isList : Switch → Bool
  | allow | deny => true
  | _ => false

/-- The number of results that a text asks for. -/
def count? (text : String) : Option UInt64 :=
  let digits := match text.toList with
    | '+' :: rest => rest
    | s => s
  if digits.isEmpty ∨ !digits.all Char.isDigit then none
  else
    let n := digits.foldl (fun n c => n * 10 + (c.toNat - '0'.toNat)) 0
    if n < UInt64.size then some (.ofNat n) else none

/-- Whether a text can be the value of an option. Paths are not empty. -/
def admits (s : Switch) (value : String) : Bool :=
  match s with
  | config | index | query => value != ""
  | maxResults => (count? value).isSome
  | _ => true

end Switch

/-- The options that are given, with their values, in order. -/
structure Given where
  entries : List (Switch × String) := []

namespace Given

def has (given : Given) (s : Switch) : Bool :=
  given.entries.any fun entry => entry.1 = s

/-- The value of an option that is given once at most. -/
def value? (given : Given) (s : Switch) : Option String :=
  (given.entries.find? fun entry => entry.1 = s).map (·.2)

/-- All values of an option, in order. -/
def values (given : Given) (s : Switch) : List String :=
  (given.entries.filter fun entry => entry.1 = s).map (·.2)

/-- Takes one more option in, unless it may not be repeated or does not admit its value. -/
def add (given : Given) (s : Switch) (value : String) : Option Given :=
  if given.has s ∧ !s.isList then none
  else if s.admits value then some ⟨given.entries ++ [(s, value)]⟩
  else none

end Given

/-- What an argument is. -/
inductive Argument where
  /-- No option. -/
  | word
  /-- The end of the options. -/
  | escape
  /-- Options, the last of which may still need a value. -/
  | options (complete : List (Switch × String)) (pending : Option Switch)
  | unknown

namespace Argument

/-- Leaves out an equals sign at the start. -/
def dropEquals : List Char → List Char
  | '=' :: rest => rest
  | s => s

/-- The options of the letters after one dash. -/
def ofLetters (known : List Switch) : List Char → Option (List (Switch × String) × Option Switch)
  | [] => some ([], none)
  | c :: rest =>
    match known.find? fun s => s.letter? = some c with
    | none => none
    | some s =>
      if s.hasValue then
        if rest.isEmpty then some ([], some s)
        else some ([(s, String.ofList (dropEquals rest))], none)
      else if s = .version ∨ s = .help then some ([(s, "")], none)
      else (ofLetters known rest).map fun (complete, pending) => ((s, "") :: complete, pending)

/-- The option of a name after two dashes, which a value may follow. -/
def ofName (known : List Switch) (text : List Char) : Argument :=
  let name := text.takeWhile (· ≠ '=')
  match known.find? fun s => s.name.toList = name with
  | none => unknown
  | some s =>
    match text.dropWhile (· ≠ '=') with
    | '=' :: value =>
      if s.hasValue then options [(s, String.ofList value)] none else unknown
    | _ => if s.hasValue then options [] (some s) else options [(s, "")] none

/-- What a text is where some options are known. -/
def ofText (known : List Switch) (text : String) : Argument :=
  match text.toList with
  | ['-', '-'] => escape
  | '-' :: '-' :: rest => ofName known rest
  | '-' :: c :: rest =>
    match ofLetters known (c :: rest) with
    | some (complete, pending) => options complete pending
    | none => unknown
  | _ => word

end Argument

/-- Whether an argument can be the value of the option before it. -/
def isValue (argument : String) : Bool :=
  argument == "-" || argument.toList.head? != some '-'

/-- What the options at the start of arguments say. -/
inductive Scan where
  /-- Some options, and the arguments from the first word on. -/
  | options (given : Given) (rest : List String)
  /-- To show the version or the help, whatever else there is. -/
  | shown (s : Switch)
  | invalid

/-- Takes options in, up to one that ends everything. -/
def Given.addAll (given : Given) : List (Switch × String) → Except Scan Given
  | [] => .ok given
  | (s, value) :: rest =>
    if s = .version ∨ s = .help then .error (.shown s)
    else match given.add s value with
      | some given => given.addAll rest
      | none => .error .invalid

/-- Reads the options at the start of arguments. -/
def scan (known : List Switch) (given : Given) : List String → Scan
  | [] => .options given []
  | argument :: rest =>
    match Argument.ofText known argument with
    | .word => .options given (argument :: rest)
    | .escape => if rest.isEmpty then .options given [] else .invalid
    | .unknown => .invalid
    | .options complete pending =>
      match given.addAll complete, pending with
      | .error scan, _ => scan
      | .ok given, none => scan known given rest
      | .ok given, some s =>
        match rest with
        | [] => .invalid
        | value :: rest =>
          match isValue value, given.add s value with
          | true, some given => scan known given rest
          | _, _ => .invalid

end NeighborSearch.Command
