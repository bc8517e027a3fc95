import NeighborSearch.Proofs.Config.Ways

/-!
# Settings leaf by leaf

A table of settings has ten leaves, some of them in sections. Which settings a table is read as
depends on nothing but the values of its leaves: each of them must have the type of its leaf, and
what is left out has its default.
-/

namespace NeighborSearch

open Config (Entries Reading Value)

/-! ## Readings -/

namespace Config

/-- The type of a setting. -/
inductive Kind where
  | natural (bound : Nat)
  | string
  | boolean
  | strings
deriving DecidableEq, Repr

/-- Whether a value has a type. -/
def Kind.admits : Kind → Value → Bool
  | natural bound, .integer n => decide (0 ≤ n ∧ n < bound)
  | string, .string _ => true
  | boolean, .boolean _ => true
  | strings, .array items => items.all fun
    | .string _ => true
    | _ => false
  | _, _ => false

namespace Kind

variable {value : Value}

theorem admits_natural_iff {bound : Nat} :
    (natural bound).admits value = true ↔ ∃ n : Nat, n < bound ∧ value = .integer n := by
  cases value with
  | integer z =>
    rw [admits, decide_eq_true_eq]
    constructor
    · rintro ⟨hpos, hlt⟩
      obtain ⟨n, rfl⟩ := Int.eq_ofNat_of_zero_le hpos
      exact ⟨n, Int.ofNat_lt.1 hlt, rfl⟩
    · rintro ⟨n, hlt, heq⟩
      cases heq
      omega
  | _ => simp [admits]

theorem admits_string_iff : string.admits value = true ↔ ∃ s, value = .string s := by
  cases value <;> simp [admits]

theorem admits_boolean_iff : boolean.admits value = true ↔ ∃ b, value = .boolean b := by
  cases value <;> simp [admits]

theorem admits_strings_iff :
    strings.admits value = true
      ↔ ∃ items : List String, value = SearchSettings.stringsValue items := by
  cases value with
  | array values =>
    rw [admits]
    induction values with
    | nil => exact iff_of_true rfl ⟨[], rfl⟩
    | cons item values ih =>
      rw [List.all_cons, Bool.and_eq_true, ih]
      constructor
      · rintro ⟨hitem, items, hitems⟩
        cases item with
        | string s => exact ⟨s :: items, by cases hitems; rfl⟩
        | _ => cases hitem
      · rintro ⟨_ | ⟨s, items⟩, heq⟩
        · cases heq
        · cases heq
          exact ⟨rfl, items, rfl⟩
  | _ => simp [admits, SearchSettings.stringsValue]

end Kind

/-- A reading accepts what something is written as, and nothing else. The entries of a table do not
count for it. -/
structure Reads {α : Type} (reading : Reading α) (written : α → Option Value) : Prop where
  ok_iff : ∀ {value x}, reading value = .ok x ↔ written x = some value
  injective : Function.Injective written
  shut : ∀ value, reading value.shut = reading value

theorem reads_string : Reads string fun s => some (.string s) where
  ok_iff {value x} := by
    cases value with
    | string s => simp [string, eq_comm]
    | _ => simp [string]
  injective x y h := by simpa using h
  shut value := by cases value <;> rfl

theorem reads_boolean : Reads boolean fun b => some (.boolean b) where
  ok_iff {value x} := by
    cases value with
    | boolean b => simp [boolean, eq_comm]
    | _ => simp [boolean]
  injective x y h := by simpa using h
  shut value := by cases value <;> rfl

theorem reads_optional_string : Reads (optional string) (Option.map .string) where
  ok_iff {value x} := by
    cases value with
    | string s => cases x <;> simp [optional, string, Except.map, eq_comm]
    | _ => cases x <;> simp [optional, string, Except.map]
  injective := Option.map_injective fun x y h => by simpa using h
  shut value := by cases value <;> rfl

theorem natural_eq_ok_iff {bound n : Nat} {value : Value} :
    natural bound value = .ok n ↔ value = .integer n ∧ n < bound := by
  cases value with
  | integer z =>
    rw [natural, Value.integer.injEq]
    split
    · rw [Except.ok.injEq]
      omega
    · simp only [reduceCtorEq, false_iff]
      omega
  | _ => simp [natural]

theorem shut_natural (bound : Nat) (value : Value) :
    natural bound value.shut = natural bound value := by
  cases value <;> rfl

theorem reads_uint32 : Reads uint32 fun n => some (.integer n.toNat) where
  ok_iff {value x} := by
    constructor
    · intro h
      obtain ⟨n, hn, rfl⟩ := map_eq_ok_iff.1 h
      obtain ⟨rfl, hlt⟩ := natural_eq_ok_iff.1 hn
      rw [UInt32.toNat_ofNat_of_lt' hlt]
    · intro h
      cases h
      exact uint32_toNat x
  injective x y h := by
    have hnat : (x.toNat : Int) = y.toNat := by simpa only [Option.some.injEq, Value.integer.injEq]
      using h
    exact UInt32.toNat_inj.1 (Int.ofNat_inj.1 hnat)
  shut value := by rw [uint32, uint32, shut_natural]

theorem reads_uint64 : Reads uint64 fun n => some (.integer n.toNat) where
  ok_iff {value x} := by
    constructor
    · intro h
      obtain ⟨n, hn, rfl⟩ := map_eq_ok_iff.1 h
      obtain ⟨rfl, hlt⟩ := natural_eq_ok_iff.1 hn
      rw [UInt64.toNat_ofNat_of_lt' hlt]
    · intro h
      cases h
      exact uint64_toNat x
  injective x y h := by
    have hnat : (x.toNat : Int) = y.toNat := by simpa only [Option.some.injEq, Value.integer.injEq]
      using h
    exact UInt64.toNat_inj.1 (Int.ofNat_inj.1 hnat)
  shut value := by rw [uint64, uint64, shut_natural]

/-- Items that are read as strings are these strings. -/
theorem items_string_eq_ok {i : Nat} {values : List Value} {strings : List String}
    (h : items string i values = .ok strings) : values = strings.map .string := by
  induction values generalizing i strings with
  | nil =>
    cases h
    rfl
  | cons value values ih =>
    rw [items] at h
    obtain ⟨item, hitem, h⟩ := bind_eq_ok_iff.1 h
    obtain ⟨others, hothers, h⟩ := bind_eq_ok_iff.1 h
    cases h
    rw [within] at hitem
    cases value with
    | string s =>
      cases hitem
      rw [List.map_cons, ih hothers]
    | _ => cases hitem

theorem reads_strings : Reads (list string) fun strings => some (SearchSettings.stringsValue strings)
    where
  ok_iff {value x} := by
    constructor
    · intro h
      cases value with
      | array values => rw [SearchSettings.stringsValue, ← items_string_eq_ok h]
      | _ => cases h
    · intro h
      cases h
      exact items_strings 0 x
  injective x y h := by
    have hmap : x.map Value.string = y.map Value.string := by
      simpa only [SearchSettings.stringsValue, Option.some.injEq, Value.array.injEq] using h
    exact List.map_injective_iff.2 (fun s t hst => by simpa using hst) hmap
  shut value := by cases value <;> rfl

/-! ## Entries -/

section

variable {α : Type} {reading : Reading α} {written : α → Option Value}
variable {entries others : Entries} {name : String} {default x : α}

theorem within_eq_ok_iff {step : String} {result : Except Way α} :
    within step result = .ok x ↔ result = .ok x := by
  cases result <;> simp [within, Except.mapError]

/-- An entry is read as what is written there, or else as its default. -/
theorem Reads.entry_eq_ok_iff (h : Reads reading written) :
    entry entries name reading default = .ok x
      ↔ written x = (entries.lookup name).or (written default) := by
  rw [entry]
  cases entries.lookup name with
  | none =>
    rw [Option.none_or, Except.ok.injEq, eq_comm]
    exact h.injective.eq_iff.symm
  | some value =>
    rw [Option.some_or]
    exact within_eq_ok_iff.trans h.ok_iff

/-- Entries with values that are the same but for the entries of tables are read the same. -/
theorem Reads.entry_congr (h : Reads reading written)
    (hsame : (entries.lookup name).map Value.shut = (others.lookup name).map Value.shut) :
    entry entries name reading default = entry others name reading default := by
  rw [entry, entry]
  cases hvalue : entries.lookup name with
  | none =>
    rw [hvalue, Option.map_none, eq_comm, Option.map_eq_none_iff] at hsame
    rw [hsame]
  | some value =>
    rw [hvalue, Option.map_some, eq_comm, Option.map_eq_some_iff] at hsame
    obtain ⟨other, hother, hshut⟩ := hsame
    rw [hother]
    dsimp only
    rw [← h.shut value, ← h.shut other, hshut]

theorem field_sectionFields_eq :
    field (sectionFields entries) name reading default = entry entries name reading default := by
  rw [field, entry, sectionFields, Named.lookup_map fun name value => Field.mk name value]
  cases entries.lookup name <;> rfl

/-- The entries of a section. A section that is left out has none. -/
def sectionEntries (entries : Entries) (name : String) : Entries :=
  (entries.lookup name).elim [] Value.entries

theorem at?_singleton : (Value.table entries).at? [name] = entries.lookup name := by
  rw [Value.at?_cons, Value.entries]
  cases entries.lookup name <;> rfl

theorem at?_pair {step : String} :
    (Value.table entries).at? [step, name] = (sectionEntries entries step).lookup name := by
  rw [Value.at?_cons, Value.entries, sectionEntries]
  cases entries.lookup step with
  | none => rfl
  | some value =>
    rw [Option.bind_some, Value.at?_cons, Option.elim_some]
    cases value.entries.lookup name <;> rfl

/-- A section that is left out is read as one without entries. -/
theorem entry_section
    (htable : ∀ value, entries.lookup name = some value → ∃ inner, value = .table inner)
    (hdefault : reading (.table []) = .ok default) :
    entry entries name reading default
      = within name (reading (.table (sectionEntries entries name))) := by
  rw [entry, sectionEntries]
  cases hvalue : entries.lookup name with
  | none =>
    rw [Option.elim_none, hdefault]
    rfl
  | some value =>
    obtain ⟨inner, rfl⟩ := htable value hvalue
    rfl

end

end Config

/-! ## Sections -/

section

variable {entries others : Entries}

/-- Embedding options are read entry by entry. -/
theorem EmbeddingOptions.ofValue_table (entries : Entries) :
    ofValue (.table entries) = (do
      let l2Normalize ← Config.entry entries "l2_normalize" Config.boolean false
      let quantize ← Config.entry entries "quantize" Config.boolean false
      return { l2Normalize, quantize }) := by
  have hfields : Config.fields fieldNames (.table entries)
      = .ok (Config.sectionFields entries) := rfl
  rw [ofValue, hfields, ok_bind]
  simp only [Config.field_sectionFields_eq]

theorem EmbeddingOptions.ofValue_table_eq_ok_iff {o : EmbeddingOptions} :
    ofValue (.table entries) = .ok o
      ↔ some (.boolean o.l2Normalize) = (entries.lookup "l2_normalize").or (some (.boolean false))
        ∧ some (.boolean o.quantize) = (entries.lookup "quantize").or (some (.boolean false)) := by
  simp only [ofValue_table, bind_eq_ok_iff, Config.reads_boolean.entry_eq_ok_iff]
  constructor
  · rintro ⟨l2Normalize, hnormalize, quantize, hquantize, ⟨⟩⟩
    exact ⟨hnormalize, hquantize⟩
  · rintro ⟨hnormalize, hquantize⟩
    exact ⟨_, hnormalize, _, hquantize, rfl⟩

/-- Search settings are read entry by entry. -/
theorem SearchSettings.ofValue_table (entries : Entries) :
    ofValue (.table entries) = (do
      let maxResults ← Config.entry entries "max_results" Config.uint64 defaultCount
      let allowed ← Config.entry entries "metadata_allowlist" (Config.list Config.string) []
      let denied ← Config.entry entries "metadata_denylist" (Config.list Config.string) []
      return { maxResults, allowed, denied }) := by
  have hfields : Config.fields fieldNames (.table entries)
      = .ok (Config.sectionFields entries) := rfl
  rw [ofValue, hfields, ok_bind]
  simp only [Config.field_sectionFields_eq]

theorem SearchSettings.ofValue_table_eq_ok_iff {s : SearchSettings} :
    ofValue (.table entries) = .ok s
      ↔ some (.integer s.maxResults.toNat)
            = (entries.lookup "max_results").or (some (.integer defaultCount.toNat))
        ∧ some (stringsValue s.allowed)
            = (entries.lookup "metadata_allowlist").or (some (stringsValue []))
        ∧ some (stringsValue s.denied)
            = (entries.lookup "metadata_denylist").or (some (stringsValue [])) := by
  simp only [ofValue_table, bind_eq_ok_iff, Config.reads_uint64.entry_eq_ok_iff,
    Config.reads_strings.entry_eq_ok_iff]
  constructor
  · rintro ⟨maxResults, hmax, allowed, hallowed, denied, hdenied, ⟨⟩⟩
    exact ⟨hmax, hallowed, hdenied⟩
  · rintro ⟨hmax, hallowed, hdenied⟩
    exact ⟨_, hmax, _, hallowed, _, hdenied, rfl⟩

/-- Log settings are read entry by entry. -/
theorem LogSettings.ofValue_table (entries : Entries) :
    ofValue (.table entries) = (do
      let level ← Config.entry entries "level" Config.string defaultLevel
      return { level }) := by
  have hfields : Config.fields fieldNames (.table entries)
      = .ok (Config.sectionFields entries) := rfl
  rw [ofValue, hfields, ok_bind]
  simp only [Config.field_sectionFields_eq]

theorem LogSettings.ofValue_table_eq_ok_iff {s : LogSettings} :
    ofValue (.table entries) = .ok s
      ↔ some (.string s.level)
          = (entries.lookup "level").or (some (.string defaultLevel)) := by
  simp only [ofValue_table, bind_eq_ok_iff, Config.reads_string.entry_eq_ok_iff]
  constructor
  · rintro ⟨level, hlevel, ⟨⟩⟩
    exact hlevel
  · exact fun hlevel => ⟨_, hlevel, rfl⟩

/-! An empty section gives each field its own default, and a section that is left out is one of the
default settings. Both are the same. -/

theorem EmbeddingOptions.ofValue_nil : ofValue (.table []) = .ok {} := rfl

theorem SearchSettings.ofValue_nil : ofValue (.table []) = .ok {} := rfl

theorem LogSettings.ofValue_nil : ofValue (.table []) = .ok {} := rfl

/-- Whether the same stands under a name in two tables, but for the entries of tables. -/
def SameAt (entries others : Entries) (name : String) : Prop :=
  (entries.lookup name).map Value.shut = (others.lookup name).map Value.shut

theorem EmbeddingOptions.ofValue_congr (h : ∀ name ∈ fieldNames, SameAt entries others name) :
    ofValue (.table entries) = ofValue (.table others) := by
  rw [ofValue_table, ofValue_table,
    Config.reads_boolean.entry_congr (h "l2_normalize" (by decide)),
    Config.reads_boolean.entry_congr (h "quantize" (by decide))]

theorem SearchSettings.ofValue_congr (h : ∀ name ∈ fieldNames, SameAt entries others name) :
    ofValue (.table entries) = ofValue (.table others) := by
  rw [ofValue_table, ofValue_table,
    Config.reads_uint64.entry_congr (h "max_results" (by decide)),
    Config.reads_strings.entry_congr (h "metadata_allowlist" (by decide)),
    Config.reads_strings.entry_congr (h "metadata_denylist" (by decide))]

theorem LogSettings.ofValue_congr (h : ∀ name ∈ fieldNames, SameAt entries others name) :
    ofValue (.table entries) = ofValue (.table others) := by
  rw [ofValue_table, ofValue_table, Config.reads_string.entry_congr (h "level" (by decide))]

end

/-! ## Leaves -/

namespace Settings

/-- The settings that are not sections. -/
inductive Leaf where
  | version
  | modelPath
  | indexPath
  | workspaceRoot
  | l2Normalize
  | quantize
  | maxResults
  | allowed
  | denied
  | level
deriving DecidableEq, Repr

namespace Leaf

/-- The way to a setting. -/
def way : Leaf → List String
  | version => ["version"]
  | modelPath => ["model_path"]
  | indexPath => ["index_path"]
  | workspaceRoot => ["workspace_root"]
  | l2Normalize => ["embedding", "l2_normalize"]
  | quantize => ["embedding", "quantize"]
  | maxResults => ["search", "max_results"]
  | allowed => ["search", "metadata_allowlist"]
  | denied => ["search", "metadata_denylist"]
  | level => ["logging", "level"]

/-- The type of a setting. -/
def kind : Leaf → Config.Kind
  | version => .natural UInt32.size
  | modelPath | indexPath | workspaceRoot | level => .string
  | l2Normalize | quantize => .boolean
  | maxResults => .natural UInt64.size
  | allowed | denied => .strings

end Leaf

/-- The value of a setting. A path may be absent. -/
def value (s : Settings) : Leaf → Option Value
  | .version => some (.integer s.version.toNat)
  | .modelPath => s.modelPath.map .string
  | .indexPath => s.indexPath.map .string
  | .workspaceRoot => s.workspaceRoot.map .string
  | .l2Normalize => some (.boolean s.embedding.l2Normalize)
  | .quantize => some (.boolean s.embedding.quantize)
  | .maxResults => some (.integer s.search.maxResults.toNat)
  | .allowed => some (SearchSettings.stringsValue s.search.allowed)
  | .denied => some (SearchSettings.stringsValue s.search.denied)
  | .level => some (.string s.logging.level)

/-- The names of the sections. -/
def sectionNames : List String := ["embedding", "search", "logging"]

/-- Whether the sections that a table has are tables themselves. -/
def HasSections (entries : Entries) : Prop :=
  ∀ name ∈ sectionNames, ∀ value, entries.lookup name = some value → ∃ inner, value = .table inner

section

variable {entries others : Entries} {s : Settings}

theorem HasSections.isOpen (h : HasSections entries) (leaf : Leaf) :
    (Value.table entries).IsOpen leaf.way := by
  have hsection {name : String} (hname : name ∈ sectionNames) (field : String) :
      (Value.table entries).IsOpen [name, field] := by
    refine ⟨⟨entries, rfl⟩, fun inner hinner => ?_⟩
    exact ⟨h name hname inner hinner, fun _ _ => trivial⟩
  cases leaf with
  | version | modelPath | indexPath | workspaceRoot => exact ⟨⟨entries, rfl⟩, fun _ _ => trivial⟩
  | l2Normalize | quantize | maxResults | allowed | denied | level => exact hsection (by decide) _

/-- The value of a setting has its type. -/
theorem admits_value {leaf : Leaf} {found : Value} (h : s.value leaf = some found) :
    leaf.kind.admits found = true := by
  cases leaf with
  | version =>
    cases h
    have hlt := s.version.toNat_lt_size
    rw [Leaf.kind, Config.Kind.admits, decide_eq_true_eq]
    omega
  | maxResults =>
    cases h
    have hlt := s.search.maxResults.toNat_lt_size
    rw [Leaf.kind, Config.Kind.admits, decide_eq_true_eq]
    omega
  | modelPath | indexPath | workspaceRoot =>
    obtain ⟨text, _, rfl⟩ := Option.map_eq_some_iff.1 h
    rfl
  | allowed | denied =>
    cases h
    rw [Leaf.kind, SearchSettings.stringsValue, Config.Kind.admits, List.all_map]
    exact List.all_eq_true.2 fun _ _ => rfl
  | l2Normalize | quantize | level =>
    cases h
    rfl

/-- Sections are read by their entries. -/
theorem ofTable_eq (h : HasSections entries) :
    ofTable entries = (do
      let embedding ← Config.within "embedding"
        (EmbeddingOptions.ofValue (.table (Config.sectionEntries entries "embedding")))
      let indexPath ← Config.entry entries "index_path" (Config.optional Config.string) none
      let logging ← Config.within "logging"
        (LogSettings.ofValue (.table (Config.sectionEntries entries "logging")))
      let modelPath ← Config.entry entries "model_path" (Config.optional Config.string) none
      let search ← Config.within "search"
        (SearchSettings.ofValue (.table (Config.sectionEntries entries "search")))
      let version ← Config.entry entries "version" Config.uint32 defaultVersion
      let workspaceRoot ←
        Config.entry entries "workspace_root" (Config.optional Config.string) none
      return { version, modelPath, indexPath, workspaceRoot, embedding, search, logging }) := by
  rw [ofTable, Config.entry_section (h "embedding" (by decide)) EmbeddingOptions.ofValue_nil,
    Config.entry_section (h "logging" (by decide)) LogSettings.ofValue_nil,
    Config.entry_section (h "search" (by decide)) SearchSettings.ofValue_nil]

/-- A table is read as some settings exactly if these have the values of its leaves, and defaults
for what it leaves out. -/
theorem ofTable_eq_ok_iff (h : HasSections entries) :
    ofTable entries = .ok s
      ↔ ∀ leaf : Leaf, s.value leaf
          = ((Value.table entries).at? leaf.way).or (({} : Settings).value leaf) := by
  simp only [ofTable_eq h, bind_eq_ok_iff, Config.within_eq_ok_iff,
    Config.reads_optional_string.entry_eq_ok_iff, Config.reads_uint32.entry_eq_ok_iff,
    EmbeddingOptions.ofValue_table_eq_ok_iff, SearchSettings.ofValue_table_eq_ok_iff,
    LogSettings.ofValue_table_eq_ok_iff]
  constructor
  · rintro ⟨embedding, ⟨hnormalize, hquantize⟩, indexPath, hindex, logging, hlevel, modelPath,
      hmodel, search, ⟨hmax, hallowed, hdenied⟩, version, hversion, workspaceRoot, hroot, ⟨⟩⟩ leaf
    cases leaf with
    | version | modelPath | indexPath | workspaceRoot =>
      rw [Leaf.way, Config.at?_singleton]
      assumption
    | l2Normalize | quantize | maxResults | allowed | denied | level =>
      rw [Leaf.way, Config.at?_pair]
      assumption
  · intro hvalues
    have htop (leaf : Leaf) {name : String} (hway : leaf.way = [name]) :
        s.value leaf = (entries.lookup name).or (({} : Settings).value leaf) := by
      rw [hvalues leaf, hway, Config.at?_singleton]
    have hfield (leaf : Leaf) {step name : String} (hway : leaf.way = [step, name]) :
        s.value leaf
          = ((Config.sectionEntries entries step).lookup name).or (({} : Settings).value leaf) := by
      rw [hvalues leaf, hway, Config.at?_pair]
    exact ⟨_, ⟨hfield .l2Normalize rfl, hfield .quantize rfl⟩,
      _, htop .indexPath rfl, _, hfield .level rfl,
      _, htop .modelPath rfl,
      _, ⟨hfield .maxResults rfl, hfield .allowed rfl,
        hfield .denied rfl⟩,
      _, htop .version rfl, _, htop .workspaceRoot rfl, rfl⟩

/-- Only the leaves of a table count. -/
theorem ofTable_congr (h : HasSections entries) (hothers : HasSections others)
    (hsame : ∀ leaf : Leaf, ((Value.table entries).at? leaf.way).map Value.shut
      = ((Value.table others).at? leaf.way).map Value.shut) :
    ofTable entries = ofTable others := by
  have htop (leaf : Leaf) {name : String} (hway : leaf.way = [name]) :
      SameAt entries others name := by
    have hleaf := hsame leaf
    rwa [hway, Config.at?_singleton, Config.at?_singleton] at hleaf
  have hfield (leaf : Leaf) {step name : String} (hway : leaf.way = [step, name]) :
      SameAt (Config.sectionEntries entries step) (Config.sectionEntries others step) name := by
    have hleaf := hsame leaf
    rwa [hway, Config.at?_pair, Config.at?_pair] at hleaf
  have hembedding : ∀ name ∈ EmbeddingOptions.fieldNames,
      SameAt (Config.sectionEntries entries "embedding")
        (Config.sectionEntries others "embedding") name :=
    List.forall_mem_cons.2 ⟨hfield .l2Normalize rfl,
      List.forall_mem_singleton.2 (hfield .quantize rfl)⟩
  have hsearch : ∀ name ∈ SearchSettings.fieldNames,
      SameAt (Config.sectionEntries entries "search")
        (Config.sectionEntries others "search") name :=
    List.forall_mem_cons.2 ⟨hfield .maxResults rfl,
      List.forall_mem_cons.2 ⟨hfield .allowed rfl,
        List.forall_mem_singleton.2 (hfield .denied rfl)⟩⟩
  have hlogging : ∀ name ∈ LogSettings.fieldNames,
      SameAt (Config.sectionEntries entries "logging")
        (Config.sectionEntries others "logging") name :=
    List.forall_mem_singleton.2 (hfield .level rfl)
  rw [ofTable_eq h, ofTable_eq hothers, EmbeddingOptions.ofValue_congr hembedding,
    SearchSettings.ofValue_congr hsearch, LogSettings.ofValue_congr hlogging,
    Config.reads_optional_string.entry_congr (htop .indexPath rfl),
    Config.reads_optional_string.entry_congr (htop .modelPath rfl),
    Config.reads_uint32.entry_congr (htop .version rfl),
    Config.reads_optional_string.entry_congr (htop .workspaceRoot rfl)]

/-- There are settings with any values that have the types of their leaves, where at most paths are
absent. -/
theorem exists_value_eq {values : Leaf → Option Value}
    (hadmitted : ∀ leaf found, values leaf = some found → leaf.kind.admits found = true)
    (hpresent : ∀ leaf, values leaf = none → ({} : Settings).value leaf = none) :
    ∃ s : Settings, ∀ leaf, s.value leaf = values leaf := by
  have hsaid (leaf : Leaf) (hdefault : ({} : Settings).value leaf ≠ none) :
      ∃ found, values leaf = some found ∧ leaf.kind.admits found = true := by
    obtain ⟨found, hfound⟩ := Option.ne_none_iff_exists'.1 (mt (hpresent leaf) hdefault)
    exact ⟨found, hfound, hadmitted leaf found hfound⟩
  have hpath (leaf : Leaf) (hkind : leaf.kind = .string) :
      ∃ path : Option String, values leaf = path.map .string := by
    cases hvalue : values leaf with
    | none => exact ⟨none, rfl⟩
    | some found =>
      have hstring := hadmitted leaf found hvalue
      rw [hkind, Config.Kind.admits_string_iff] at hstring
      obtain ⟨text, rfl⟩ := hstring
      exact ⟨some text, rfl⟩
  obtain ⟨modelPath, hmodel⟩ := hpath .modelPath rfl
  obtain ⟨indexPath, hindex⟩ := hpath .indexPath rfl
  obtain ⟨workspaceRoot, hroot⟩ := hpath .workspaceRoot rfl
  obtain ⟨_, hversion, hkind⟩ := hsaid .version (by decide)
  obtain ⟨version, hversionLt, rfl⟩ := Config.Kind.admits_natural_iff.1 hkind
  obtain ⟨_, hnormalize, hkind⟩ := hsaid .l2Normalize (by decide)
  obtain ⟨l2Normalize, rfl⟩ := Config.Kind.admits_boolean_iff.1 hkind
  obtain ⟨_, hquantize, hkind⟩ := hsaid .quantize (by decide)
  obtain ⟨quantize, rfl⟩ := Config.Kind.admits_boolean_iff.1 hkind
  obtain ⟨_, hmax, hkind⟩ := hsaid .maxResults (by decide)
  obtain ⟨maxResults, hmaxLt, rfl⟩ := Config.Kind.admits_natural_iff.1 hkind
  obtain ⟨_, hallowed, hkind⟩ := hsaid .allowed (by decide)
  obtain ⟨allowed, rfl⟩ := Config.Kind.admits_strings_iff.1 hkind
  obtain ⟨_, hdenied, hkind⟩ := hsaid .denied (by decide)
  obtain ⟨denied, rfl⟩ := Config.Kind.admits_strings_iff.1 hkind
  obtain ⟨_, hlevel, hkind⟩ := hsaid .level (by decide)
  obtain ⟨level, rfl⟩ := Config.Kind.admits_string_iff.1 hkind
  refine ⟨{
    version := .ofNat version, modelPath, indexPath, workspaceRoot
    embedding := { l2Normalize, quantize }
    search := { maxResults := .ofNat maxResults, allowed, denied }
    logging := { level } }, fun leaf => ?_⟩
  cases leaf with
  | version => rw [hversion, value, UInt32.toNat_ofNat_of_lt' hversionLt]
  | maxResults => rw [hmax, value, UInt64.toNat_ofNat_of_lt' hmaxLt]
  | modelPath => exact hmodel.symm
  | indexPath => exact hindex.symm
  | workspaceRoot => exact hroot.symm
  | l2Normalize => exact hnormalize.symm
  | quantize => exact hquantize.symm
  | allowed => exact hallowed.symm
  | denied => exact hdenied.symm
  | level => exact hlevel.symm

end

end Settings

end NeighborSearch
