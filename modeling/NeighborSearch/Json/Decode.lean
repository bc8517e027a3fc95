import NeighborSearch.Json.Raw

/-!
# Decoding JSON

What a raw JSON value is read as. A record may be written as an object or as an array of its fields
in order. In an object unknown members are left out of account and a known one must not occur
twice; an array must not be longer than the record, and may be shorter only by fields that have a
default.
-/

namespace NeighborSearch.RawJson

/-- The text of a string. -/
def text? : RawJson → Option String
  | string inner => (unescape inner).map String.ofList
  | _ => none

def bool? : RawJson → Option Bool
  | bool b => some b
  | _ => none

def number? : RawJson → Option Json.Number
  | number n => n.value?
  | _ => none

/-- A natural number below a bound. -/
def natural? (bound : Nat) (value : RawJson) : Option Nat :=
  value.number?.bind (·.below? bound)

def uint8? (value : RawJson) : Option UInt8 :=
  (value.natural? UInt8.size).map UInt8.ofNat

def uint32? (value : RawJson) : Option UInt32 :=
  (value.natural? UInt32.size).map UInt32.ofNat

def uint64? (value : RawJson) : Option UInt64 :=
  (value.natural? UInt64.size).map UInt64.ofNat

/-- A number in single precision. -/
def single? (value : RawJson) : Option Float32 :=
  value.number?.map (·.toSingle)

/-- The items of an array, each decoded. -/
def list? {α : Type} (decode : RawJson → Option α) : RawJson → Option (List α)
  | array items => items.mapM decode
  | _ => none

/-- The fields of a record. -/
structure Fields where
  /-- Whether the record is written as an array. -/
  positional : Bool
  /-- The value of each field that is written, by name. -/
  values : List (String × RawJson)

/-- Collects the members that are named, and fails for a second one of a name. -/
def collectMembers (names : List String) :
    List (List Char × RawJson) → List (String × RawJson) → Option (List (String × RawJson))
  | [], found => some found
  | (inner, value) :: rest, found =>
    match unescape inner with
    | none => none
    | some name =>
      let name := String.ofList name
      if !names.contains name then collectMembers names rest found
      else if (found.lookup name).isSome then none
      else collectMembers names rest (found ++ [(name, value)])

/-- The fields of a record with these field names. -/
def fields? (names : List String) : RawJson → Option Fields
  | object members => (collectMembers names members []).map fun values => ⟨false, values⟩
  | array items =>
    if names.length < items.length then none else some ⟨true, names.zip items⟩
  | _ => none

namespace Fields

/-- A field that has to be written. -/
def required? {α : Type} (fields : Fields) (decode : RawJson → Option α) (name : String) :
    Option α :=
  (fields.values.lookup name).bind decode

/-- A value that may be `null`. -/
def nullable? {α : Type} (decode : RawJson → Option α) : RawJson → Option (Option α)
  | null => some none
  | value => (decode value).map some

/-- A field that may be left out of an object, and may be `null`. -/
def optional? {α : Type} (fields : Fields) (decode : RawJson → Option α) (name : String) :
    Option (Option α) :=
  match fields.values.lookup name with
  | none => if fields.positional then none else some none
  | some value => nullable? decode value

/-- A field with a default. -/
def defaulted? {α : Type} (fields : Fields) (decode : RawJson → Option α) (name : String)
    (default : α) : Option α :=
  match fields.values.lookup name with
  | none => some default
  | some value => decode value

end Fields

/-- A distinct value written as its name, or as an object whose one member has that name and no
value. -/
def name? : RawJson → Option String
  | string inner => (unescape inner).map String.ofList
  | object [(inner, null)] => (unescape inner).map String.ofList
  | _ => none

/-- Puts a member in its place by name, in place of an earlier one of that name. -/
def insertMember (name : String) (value : Json) : List (String × Json) → List (String × Json)
  | [] => [(name, value)]
  | member :: rest =>
    match compare name member.1 with
    | .lt => (name, value) :: member :: rest
    | .eq => (name, value) :: rest
    | .gt => member :: insertMember name value rest

mutual

/-- Any value, with at most `depth` arrays and objects inside each other. Members are sorted by name
and the last of a name counts. -/
def value? : (depth : Nat) → RawJson → Option Json
  | _, null => some .null
  | _, bool b => some (.bool b)
  | _, number n => n.value?.map .number
  | _, string inner => (unescape inner).map fun s => .string (String.ofList s)
  | 0, array _ => none
  | 0, object _ => none
  | depth + 1, array items => (values? depth items).map .array
  | depth + 1, object members => (members? depth members []).map .object

def values? : (depth : Nat) → List RawJson → Option (List Json)
  | _, [] => some []
  | depth, item :: rest =>
    match value? depth item, values? depth rest with
    | some item, some rest => some (item :: rest)
    | _, _ => none

def members? : (depth : Nat) → List (List Char × RawJson) → List (String × Json) →
    Option (List (String × Json))
  | _, [], found => some found
  | depth, (inner, value) :: rest, found =>
    match unescape inner, value? depth value with
    | some name, some value => members? depth rest (insertMember (String.ofList name) value found)
    | _, _ => none

end

/-- The number of arrays and objects that may stand inside each other. -/
def greatestDepth : Nat := 127

end NeighborSearch.RawJson
