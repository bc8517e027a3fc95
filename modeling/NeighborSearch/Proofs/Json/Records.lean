import Mathlib.Data.List.Forall2
import NeighborSearch.Json.Decode
import NeighborSearch.Proofs.Json.Writers
import NeighborSearch.Proofs.Named

/-!
# Decoding what was written

How the raw form of a value is decoded: strings, booleans and natural numbers come back as they
were, arrays item by item, and the fields of a record are found under their names.
-/

namespace NeighborSearch.RawJson

open Json (escape)

/-! ## Plain values -/

theorem unescape_name (s : String) : (unescape (escape s.toList)).map String.ofList = some s := by
  rw [unescape_escape, Option.map_some, String.ofList_toList]

@[simp] theorem text?_string (s : String) : (Json.string s).toRaw.text? = some s := by
  rw [Json.toRaw, text?, unescape_name]

@[simp] theorem bool?_bool (b : Bool) : (Json.bool b).toRaw.bool? = some b := by
  rw [Json.toRaw, bool?]

theorem digitsValue_toDigits (n : Nat) : Json.digitsValue (Nat.toDigits 10 n) = n :=
  Text.foldl_toDigits n

/-- A natural number of 64 bits is kept as it is. -/
theorem number?_natural (n : UInt64) : (Json.natural n).toRaw.number? = some (.natural n) := by
  have hbound : n.toNat < UInt64.size := n.toNat_lt_size
  rw [Json.natural, Json.toRaw, Json.Number.toRaw]
  simp [Json.Number.numeral?, number?, Json.Numeral.value?, Json.integerNumeral,
    digitsValue_toDigits, hbound]

theorem natural?_natural {bound : Nat} {n : UInt64} (h : n.toNat < bound) :
    (Json.natural n).toRaw.natural? bound = some n.toNat := by
  rw [natural?, number?_natural, Option.bind_some, Json.Number.below?, if_pos h]

@[simp] theorem uint64?_natural (n : UInt64) : (Json.natural n).toRaw.uint64? = some n := by
  rw [uint64?, natural?_natural n.toNat_lt_size, Option.map_some, UInt64.ofNat_toNat]

@[simp] theorem uint32?_natural (n : UInt32) :
    (Json.natural n.toUInt64).toRaw.uint32? = some n := by
  have h : n.toUInt64.toNat < UInt32.size := by
    rw [UInt32.toNat_toUInt64]
    exact n.toNat_lt_size
  rw [uint32?, natural?_natural h, Option.map_some, UInt32.toNat_toUInt64, UInt32.ofNat_toNat]

@[simp] theorem uint8?_natural (n : UInt8) :
    (Json.natural n.toUInt64).toRaw.uint8? = some n := by
  have h : n.toUInt64.toNat < UInt8.size := by
    rw [UInt8.toNat_toUInt64]
    exact n.toNat_lt_size
  rw [uint8?, natural?_natural h, Option.map_some, UInt8.toNat_toUInt64, UInt8.ofNat_toNat]

/-! ## Arrays -/

variable {α : Type}

theorem list?_array {β : Type} (decode : RawJson → Option β) (encode : α → Json) (xs : List α) :
    (Json.array (xs.map encode)).toRaw.list? decode = xs.mapM fun x => decode (encode x).toRaw := by
  rw [Json.toRaw, list?, Json.rawItems_eq_map, List.map_map, List.mapM_map]
  rfl

/-- A list is decoded item by item, and not at all if an item is not. -/
theorem mapM_eq_some_iff {β : Type} {decode : α → Option β} {xs : List α} {ys : List β} :
    xs.mapM decode = some ys ↔ List.Forall₂ (fun x y => decode x = some y) xs ys := by
  induction xs generalizing ys with
  | nil =>
    rw [List.mapM_nil, List.forall₂_nil_left_iff]
    exact Option.some_inj.trans eq_comm
  | cons x xs ih =>
    rw [List.mapM_cons, List.forall₂_cons_left_iff]
    constructor
    · intro h
      obtain ⟨y, hy, h⟩ := Option.bind_eq_some_iff.1 h
      obtain ⟨ys', hys, h⟩ := Option.bind_eq_some_iff.1 h
      exact ⟨y, ys', hy, ih.1 hys, (Option.some.inj h).symm⟩
    · rintro ⟨y, ys', hy, hys, rfl⟩
      rw [hy, ih.2 hys]
      rfl

theorem list?_strings (strings : List String) :
    (Json.array (strings.map .string)).toRaw.list? text? = some strings := by
  rw [list?_array, mapM_eq_some_iff, List.forall₂_same]
  exact fun s _ => text?_string s

/-! ## Records -/

/-- The members of an object whose names are among those of a record. -/
def written (names : List String) (members : List (String × Json)) : List (String × RawJson) :=
  (members.filter fun member => names.contains member.1).map fun (name, value) =>
    (name, value.toRaw)

/-- Members are collected in their order. None of them is refused if no name stands twice. -/
theorem collectMembers_rawMembers (names : List String) (members : List (String × Json))
    (found : List (String × RawJson)) (h : (found.map Prod.fst ++ members.map Prod.fst).Nodup) :
    collectMembers names (Json.rawMembers members) found
      = some (found ++ written names members) := by
  induction members generalizing found with
  | nil => rw [Json.rawMembers, collectMembers, written, List.filter_nil, List.map_nil,
      List.append_nil]
  | cons member rest ih =>
    obtain ⟨name, value⟩ := member
    rw [List.map_cons] at h
    have hfresh : found.lookup name = none := by
      rw [Named.lookup_eq_none]
      exact fun hmem => List.disjoint_of_nodup_append h hmem List.mem_cons_self
    rw [Json.rawMembers, collectMembers, unescape_escape]
    simp only [String.ofList_toList, hfresh, Option.isSome_none, Bool.false_eq_true, if_false]
    cases hname : names.contains name with
    | false =>
      have hrest : (found.map Prod.fst ++ rest.map Prod.fst).Nodup :=
        h.sublist (.append_left (List.sublist_cons_self name _) _)
      rw [Bool.not_false, if_pos rfl, ih found hrest, written, written, List.filter_cons, hname,
        if_neg Bool.false_ne_true]
    | true =>
      have hrest : ((found ++ [(name, value.toRaw)]).map Prod.fst ++ rest.map Prod.fst).Nodup := by
        rw [List.map_append, List.append_assoc]
        exact h
      rw [Bool.not_true, if_neg Bool.false_ne_true, ih _ hrest, written, written, List.filter_cons,
        hname, if_pos rfl, List.map_cons, List.append_assoc]
      rfl

/-- A record is read from an object with its members, and with others. -/
theorem fields?_object (names : List String) (members : List (String × Json))
    (h : (members.map Prod.fst).Nodup) :
    (Json.object members).toRaw.fields? names = some ⟨false, written names members⟩ := by
  rw [Json.toRaw, fields?, collectMembers_rawMembers names members [] h, List.nil_append,
    Option.map_some]

theorem lookup_written {names : List String} {name : String} (h : names.contains name = true)
    (members : List (String × Json)) :
    (written names members).lookup name = (members.lookup name).map Json.toRaw := by
  rw [written, Named.lookup_map fun _ => Json.toRaw, Named.lookup_filter names.contains h]

theorem required?_written {names : List String} {name : String} (h : names.contains name = true)
    (members : List (String × Json)) (decode : RawJson → Option α) :
    Fields.required? ⟨false, written names members⟩ decode name
      = (members.lookup name).bind fun value => decode value.toRaw := by
  rw [Fields.required?, lookup_written h]
  cases members.lookup name <;> rfl

/-- A field with a default is read where it is written, and has its default where it is not. -/
theorem defaulted?_written {names : List String} {name : String} (h : names.contains name = true)
    (members : List (String × Json)) (decode : RawJson → Option α) (default : α) :
    Fields.defaulted? ⟨false, written names members⟩ decode name default
      = (members.lookup name).elim (some default) fun value => decode value.toRaw := by
  rw [Fields.defaulted?, lookup_written h]
  cases members.lookup name <;> rfl

/-- A field that may be left out is read where it is written. -/
theorem optional?_written {names : List String} {name : String} (h : names.contains name = true)
    (members : List (String × Json)) (decode : RawJson → Option α) :
    Fields.optional? ⟨false, written names members⟩ decode name
      = (members.lookup name).elim (some none) fun value =>
          Fields.nullable? decode value.toRaw := by
  rw [Fields.optional?, lookup_written h]
  cases members.lookup name <;> rfl

theorem nullable?_of_ne_null {value : RawJson} (h : value ≠ null) (decode : RawJson → Option α) :
    Fields.nullable? decode value = (decode value).map some := by
  cases value with
  | null => exact absurd rfl h
  | _ => rfl

/-! ### Fields that may be absent -/

section Present

variable {names : List String} {name : String} {entries : List (String × Option Json)}

/-- A record is read from an object without the fields that are absent. -/
theorem fields?_present (names : List String) (h : (entries.map Prod.fst).Nodup) :
    (Json.object (Named.present entries)).toRaw.fields? names
      = some ⟨false, written names (Named.present entries)⟩ :=
  fields?_object names _ (h.sublist (Named.names_present_sublist entries))

theorem required?_present (hname : names.contains name = true)
    (h : (entries.map Prod.fst).Nodup) (decode : RawJson → Option α) :
    Fields.required? ⟨false, written names (Named.present entries)⟩ decode name
      = (entries.lookup name).join.bind fun value => decode value.toRaw := by
  rw [required?_written hname, Named.lookup_present h]

theorem optional?_present (hname : names.contains name = true)
    (h : (entries.map Prod.fst).Nodup) (decode : RawJson → Option α) :
    Fields.optional? ⟨false, written names (Named.present entries)⟩ decode name
      = (entries.lookup name).join.elim (some none) fun value =>
          Fields.nullable? decode value.toRaw := by
  rw [optional?_written hname, Named.lookup_present h]

theorem defaulted?_present (hname : names.contains name = true)
    (h : (entries.map Prod.fst).Nodup) (decode : RawJson → Option α) (default : α) :
    Fields.defaulted? ⟨false, written names (Named.present entries)⟩ decode name default
      = (entries.lookup name).join.elim (some default) fun value => decode value.toRaw := by
  rw [defaulted?_written hname, Named.lookup_present h]

end Present

/-- What is written only where it is there comes back, if it is not written as `null`. -/
theorem optional_readBack {decode : RawJson → Option α} {encode : α → Json}
    (hread : ∀ a, decode (encode a).toRaw = some a) (hnull : ∀ a, (encode a).toRaw ≠ null)
    (a : Option α) :
    (a.map encode).elim (some none) (fun value => Fields.nullable? decode value.toRaw)
      = some a := by
  cases a with
  | none => rfl
  | some a =>
    rw [Option.map_some, Option.elim_some, nullable?_of_ne_null (hnull a), hread, Option.map_some]

/-- The value of one member of an object. -/
def member? (decode : RawJson → Option α) (name : String) (value : RawJson) : Option α := do
  let fields ← value.fields? [name]
  fields.required? decode name

theorem member?_object {members : List (String × Json)} (h : (members.map Prod.fst).Nodup)
    (decode : RawJson → Option α) (name : String) :
    (Json.object members).toRaw.member? decode name
      = (members.lookup name).bind fun value => decode value.toRaw := by
  rw [member?, fields?_object [name] members h]
  exact required?_written (by simp) members decode

end NeighborSearch.RawJson
