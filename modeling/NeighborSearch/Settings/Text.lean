import NeighborSearch.Settings.Table
import NeighborSearch.Toml.Reader
import NeighborSearch.Toml.Style

/-!
# Settings as TOML texts

`toToml` writes settings on lines of names and values, the sections last; `ofToml?` reads them from
any TOML document.
-/

namespace NeighborSearch

namespace Toml

/-- A list of strings. Two or more stand on lines of their own. -/
def strings : List String → List Char
  | [] => ['[', ']']
  | [s] => '[' :: quote s ++ [']']
  | many => '[' :: '\n' :: many.flatMap (fun s => "    ".toList ++ quote s ++ [',', '\n']) ++ [']']

def boolean (b : Bool) : List Char :=
  if b then "true".toList else "false".toList

/-- A line with a name and its value. -/
def line (name : String) (value : List Char) : List Char :=
  name.toList ++ [' ', '=', ' '] ++ value ++ ['\n']

/-- The header of a section, after a blank line. -/
def header (name : String) : List Char :=
  '\n' :: '[' :: name.toList ++ [']', '\n']

end Toml

namespace Settings

/-- The line of a string that may be absent. -/
def stringLine (name : String) (text : Option String) : List Char :=
  match text with
  | some text => Toml.line name (Toml.quote text)
  | none => []

def toTomlChars (s : Settings) : List Char :=
  Toml.line "version" (Nat.toDigits 10 s.version.toNat)
    ++ stringLine "model_path" s.modelPath
    ++ stringLine "index_path" s.indexPath
    ++ stringLine "workspace_root" s.workspaceRoot
    ++ Toml.header "embedding"
    ++ Toml.line "l2_normalize" (Toml.boolean s.embedding.l2Normalize)
    ++ Toml.line "quantize" (Toml.boolean s.embedding.quantize)
    ++ Toml.header "search"
    ++ Toml.line "max_results" (Nat.toDigits 10 s.search.maxResults.toNat)
    ++ Toml.line "metadata_allowlist" (Toml.strings s.search.allowed)
    ++ Toml.line "metadata_denylist" (Toml.strings s.search.denied)
    ++ Toml.header "logging"
    ++ Toml.line "level" (Toml.quote s.logging.level)

/-- Settings as a TOML text. This cannot fail: what cannot be written is a path that is no text, and
settings hold none. -/
def toToml (s : Settings) : String :=
  String.ofList s.toTomlChars

/-- The dialect of TOML texts for settings. Their integers have 128 bits, with or without a sign. -/
def textDialect : Toml.Dialect where
  edition := .v11
  newline := ['\r', '\n']
  depth := 80
  integers := ⟨-0x80000000000000000000000000000000, 0xffffffffffffffffffffffffffffffff⟩

/-- The settings of a TOML text. -/
def ofToml? (text : String) : Option Settings :=
  (Toml.read? textDialect text).bind fun entries => (ofTable entries).toOption

end Settings

end NeighborSearch
