import NeighborSearch.Config.Value

/-!
# Reading configuration values

A setting is read from the value of its name. What has the wrong type is refused with the way that
leads to it; what is left out has its default; names that no setting has are left out of account.
-/

namespace NeighborSearch.Config

/-- The way to a value: names, and positions in arrays. -/
abbrev Way := List String

/-- A way of reading values. -/
abbrev Reading (α : Type) := Value → Except Way α

def string : Reading String
  | .string s => .ok s
  | _ => .error []

def boolean : Reading Bool
  | .boolean b => .ok b
  | _ => .error []

/-- A natural number below a bound. -/
def natural (bound : Nat) : Reading Nat
  | .integer n => if 0 ≤ n ∧ n < bound then .ok n.toNat else .error []
  | _ => .error []

def uint32 : Reading UInt32 := fun value =>
  (natural UInt32.size value).map UInt32.ofNat

def uint64 : Reading UInt64 := fun value =>
  (natural UInt64.size value).map UInt64.ofNat

/-- Puts a step in front of the way to a refused value. -/
def within {α : Type} (step : String) (result : Except Way α) : Except Way α :=
  result.mapError (step :: ·)

/-- Reads the items of an array, the first of which has position `i`. -/
def items {α : Type} (reading : Reading α) (i : Nat) : List Value → Except Way (List α)
  | [] => .ok []
  | value :: rest => do
    let item ← within (toString i) (reading value)
    let rest ← items reading (i + 1) rest
    .ok (item :: rest)

def list {α : Type} (reading : Reading α) : Reading (List α)
  | .array values => items reading 0 values
  | _ => .error []

/-- A field of a section as it is written: the step that leads to it, and its value. -/
structure Field where
  step : String
  value : Value

/-- The fields of a section, by name. A section may also be an array of its fields in order; what
follows them is left out of account. -/
def fields (names : List String) : Reading (List (String × Field))
  | .table entries => .ok (entries.map fun (name, value) => (name, ⟨name, value⟩))
  | .array values =>
    .ok (List.zipWith (fun name (value, i) => (name, ⟨toString i, value⟩)) names values.zipIdx)
  | _ => .error []

/-- Reads a field of a section. -/
def field {α : Type} (written : List (String × Field)) (name : String) (reading : Reading α)
    (default : α) : Except Way α :=
  match written.lookup name with
  | none => .ok default
  | some field => within field.step (reading field.value)

/-- Reads the value of a name in a table. -/
def entry {α : Type} (entries : Entries) (name : String) (reading : Reading α) (default : α) :
    Except Way α :=
  match entries.lookup name with
  | none => .ok default
  | some value => within name (reading value)

/-- Reads a value that may be left out. -/
def optional {α : Type} (reading : Reading α) : Reading (Option α) := fun value =>
  (reading value).map some

end NeighborSearch.Config
