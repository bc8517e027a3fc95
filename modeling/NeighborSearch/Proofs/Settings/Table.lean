import NeighborSearch.Proofs.Named
import NeighborSearch.Proofs.Outcome
import NeighborSearch.Settings.Layers

/-!
# Settings read back from tables

A table says settings by what stands under their names. The table that settings are written as says
them, and goes on saying them when it is put over the defaults: a value hides what is below it, and
sections are joined name by name.
-/

namespace NeighborSearch

open Config (Entries Value)

/-! ## Layers -/

namespace Config

/-- A value that is no table replaces what is below it. -/
theorem over_of_not_table {value : Value} (h : ∀ entries, value ≠ .table entries) (below : Value) :
    value.over below = value := by
  cases value with
  | table entries => exact absurd rfl (h entries)
  | _ => cases below <;> rfl

/-- Under a name of the upper layer stands its value, put over the one below it if there is one;
under every other name stands what the lower layer says. -/
theorem lookup_join {upper : Entries} (h : (upper.map Prod.fst).Nodup) (lower : Entries)
    (name : String) :
    (join upper lower).lookup name = match upper.lookup name with
      | none => lower.lookup name
      | some value => some ((lower.lookup name).elim value value.over) := by
  induction upper generalizing lower with
  | nil => rw [join, List.lookup_nil]
  | cons entry rest ih =>
    obtain ⟨other, value⟩ := entry
    obtain ⟨hfresh, hrest⟩ := List.nodup_cons.1 h
    rw [join, ih hrest, Named.lookup_put]
    by_cases hother : name = other
    · -- the rest of the upper layer does not say this name again
      subst hother
      rw [Named.lookup_eq_none.2 hfresh, List.lookup_cons_self, if_pos rfl]
      cases lower.lookup name <;> rfl
    · rw [if_neg hother, List.lookup_cons, beq_eq_false_iff_ne.2 hother]

theorem lookup_join_plain {upper : Entries} (h : (upper.map Prod.fst).Nodup) (lower : Entries)
    {name : String} {value : Value} (hvalue : upper.lookup name = some value)
    (hplain : ∀ entries, value ≠ .table entries) :
    (join upper lower).lookup name = some value := by
  rw [lookup_join h, hvalue]
  cases lower.lookup name with
  | none => rfl
  | some below => exact congrArg some (over_of_not_table hplain below)

/-- A section of the upper layer stays as it is or is joined with what is below it. -/
theorem lookup_join_section {upper : Entries} (h : (upper.map Prod.fst).Nodup) (lower : Entries)
    {name : String} {inner : Entries} (hinner : upper.lookup name = some (.table inner)) :
    (join upper lower).lookup name = some (.table inner)
    ∨ ∃ below, (join upper lower).lookup name = some (.table (join inner below)) := by
  rw [lookup_join h, hinner]
  cases lower.lookup name with
  | none => exact .inl rfl
  | some value =>
    cases value with
    | table below => exact .inr ⟨below, by simp only [Option.elim_some, Value.over]⟩
    | _ => exact .inl rfl

/-! ## Sections -/

variable {α : Type}

/-- The fields of a section that is written as a table. -/
def sectionFields (entries : Entries) : List (String × Field) :=
  entries.map fun (name, value) => (name, ⟨name, value⟩)

theorem field_sectionFields {entries : Entries} {name : String} {value : Value}
    (h : entries.lookup name = some value) {reading : Reading α} {x : α}
    (hread : reading value = .ok x) (default : α) :
    field (sectionFields entries) name reading default = .ok x := by
  rw [field, sectionFields, Named.lookup_map fun name value => Field.mk name value, h,
    Option.map_some]
  simp only [hread]
  rfl

theorem entry_of_lookup {entries : Entries} {name : String} {value : Value}
    (h : entries.lookup name = some value) {reading : Reading α} {x : α}
    (hread : reading value = .ok x) (default : α) :
    entry entries name reading default = .ok x := by
  simp only [entry, h, hread]
  rfl

theorem boolean_boolean (b : Bool) : boolean (.boolean b) = .ok b := rfl

theorem string_string (s : String) : string (.string s) = .ok s := rfl

/-- The strings of a list are read one by one. -/
theorem items_strings (i : Nat) (strings : List String) :
    items string i (strings.map .string) = .ok strings := by
  induction strings generalizing i with
  | nil => rfl
  | cons s strings ih =>
    rw [List.map_cons, items, string]
    simp only [ih]
    rfl

theorem natural_integer {bound n : Nat} (h : n < bound) :
    natural bound (.integer n) = .ok n := by
  rw [natural, if_pos ⟨Int.natCast_nonneg n, Int.ofNat_lt.2 h⟩, Int.toNat_natCast]

end Config

/-! ## Tables that say settings -/

/-- What stands under the names of embedding options. -/
structure EmbeddingOptions.SaidBy (o : EmbeddingOptions) (entries : Entries) : Prop where
  l2Normalize : entries.lookup "l2_normalize" = some (.boolean o.l2Normalize)
  quantize : entries.lookup "quantize" = some (.boolean o.quantize)

theorem EmbeddingOptions.ofValue_of_saidBy {o : EmbeddingOptions} {entries : Entries}
    (h : o.SaidBy entries) : ofValue (.table entries) = .ok o := by
  have hfields : Config.fields fieldNames (.table entries)
      = .ok (Config.sectionFields entries) := rfl
  rw [ofValue, hfields, ok_bind,
    Config.field_sectionFields h.l2Normalize (Config.boolean_boolean _), ok_bind,
    Config.field_sectionFields h.quantize (Config.boolean_boolean _), ok_bind]
  rfl

/-- What stands under the names of search settings. -/
structure SearchSettings.SaidBy (s : SearchSettings) (entries : Entries) : Prop where
  maxResults : entries.lookup "max_results" = some (.integer s.maxResults.toNat)
  allowed : entries.lookup "metadata_allowlist" = some (stringsValue s.allowed)
  denied : entries.lookup "metadata_denylist" = some (stringsValue s.denied)

theorem Config.uint64_toNat (n : UInt64) : uint64 (.integer n.toNat) = .ok n := by
  rw [uint64, natural_integer n.toNat_lt_size]
  exact congrArg Except.ok n.ofNat_toNat

theorem Config.uint32_toNat (n : UInt32) : uint32 (.integer n.toNat) = .ok n := by
  rw [uint32, natural_integer n.toNat_lt_size]
  exact congrArg Except.ok n.ofNat_toNat

theorem SearchSettings.ofValue_of_saidBy {s : SearchSettings} {entries : Entries}
    (h : s.SaidBy entries) : ofValue (.table entries) = .ok s := by
  have hfields : Config.fields fieldNames (.table entries)
      = .ok (Config.sectionFields entries) := rfl
  rw [ofValue, hfields, ok_bind,
    Config.field_sectionFields h.maxResults (Config.uint64_toNat s.maxResults), ok_bind,
    Config.field_sectionFields h.allowed (Config.items_strings 0 s.allowed), ok_bind,
    Config.field_sectionFields h.denied (Config.items_strings 0 s.denied), ok_bind]
  rfl

/-- What stands under the names of log settings. -/
structure LogSettings.SaidBy (s : LogSettings) (entries : Entries) : Prop where
  level : entries.lookup "level" = some (.string s.level)

theorem LogSettings.ofValue_of_saidBy {s : LogSettings} {entries : Entries}
    (h : s.SaidBy entries) : ofValue (.table entries) = .ok s := by
  have hfields : Config.fields fieldNames (.table entries)
      = .ok (Config.sectionFields entries) := rfl
  rw [ofValue, hfields, ok_bind, Config.field_sectionFields h.level (Config.string_string _),
    ok_bind]
  rfl

theorem EmbeddingOptions.saidBy_toTable (o : EmbeddingOptions) : o.SaidBy o.toTable := ⟨rfl, rfl⟩

theorem EmbeddingOptions.saidBy_join (o : EmbeddingOptions) (below : Entries) :
    o.SaidBy (Config.join o.toTable below) := by
  have hnames : (o.toTable.map Prod.fst).Nodup := show fieldNames.Nodup by decide
  have hsaid := o.saidBy_toTable
  exact ⟨Config.lookup_join_plain hnames below hsaid.l2Normalize (by rintro _ ⟨⟩),
    Config.lookup_join_plain hnames below hsaid.quantize (by rintro _ ⟨⟩)⟩

theorem SearchSettings.saidBy_toTable (s : SearchSettings) : s.SaidBy s.toTable := ⟨rfl, rfl, rfl⟩

theorem SearchSettings.saidBy_join (s : SearchSettings) (below : Entries) :
    s.SaidBy (Config.join s.toTable below) := by
  have hnames : (s.toTable.map Prod.fst).Nodup := show fieldNames.Nodup by decide
  have hsaid := s.saidBy_toTable
  exact ⟨Config.lookup_join_plain hnames below hsaid.maxResults (by rintro _ ⟨⟩),
    Config.lookup_join_plain hnames below hsaid.allowed (by rintro _ ⟨⟩),
    Config.lookup_join_plain hnames below hsaid.denied (by rintro _ ⟨⟩)⟩

theorem LogSettings.saidBy_toTable (s : LogSettings) : s.SaidBy s.toTable := ⟨rfl⟩

theorem LogSettings.saidBy_join (s : LogSettings) (below : Entries) :
    s.SaidBy (Config.join s.toTable below) := by
  have hnames : (s.toTable.map Prod.fst).Nodup := List.nodup_singleton "level"
  exact ⟨Config.lookup_join_plain hnames below s.saidBy_toTable.level (by rintro _ ⟨⟩)⟩

namespace Settings

/-- What stands under the names of settings. Nothing stands under those of paths that are absent. -/
structure SaidBy (s : Settings) (entries : Entries) : Prop where
  version : entries.lookup "version" = some (.integer s.version.toNat)
  modelPath : entries.lookup "model_path" = s.modelPath.map .string
  indexPath : entries.lookup "index_path" = s.indexPath.map .string
  workspaceRoot : entries.lookup "workspace_root" = s.workspaceRoot.map .string
  embedding : ∃ inner, entries.lookup "embedding" = some (.table inner) ∧ s.embedding.SaidBy inner
  search : ∃ inner, entries.lookup "search" = some (.table inner) ∧ s.search.SaidBy inner
  logging : ∃ inner, entries.lookup "logging" = some (.table inner) ∧ s.logging.SaidBy inner

theorem entry_path {entries : Entries} {name : String} {path : Option String}
    (h : entries.lookup name = path.map .string) :
    Config.entry entries name (Config.optional Config.string) none = .ok path := by
  cases path with
  | none => rw [Config.entry, h]; rfl
  | some text =>
    have hread : Config.optional Config.string (.string text) = .ok (some text) := rfl
    exact Config.entry_of_lookup h hread none

/-- A table that says settings is read as them. -/
theorem ofTable_of_saidBy {s : Settings} {entries : Entries} (h : s.SaidBy entries) :
    ofTable entries = .ok s := by
  obtain ⟨embedding, hembedding, hembeddingSaid⟩ := h.embedding
  obtain ⟨search, hsearch, hsearchSaid⟩ := h.search
  obtain ⟨logging, hlogging, hloggingSaid⟩ := h.logging
  rw [ofTable,
    Config.entry_of_lookup hembedding (EmbeddingOptions.ofValue_of_saidBy hembeddingSaid), ok_bind,
    entry_path h.indexPath, ok_bind,
    Config.entry_of_lookup hlogging (LogSettings.ofValue_of_saidBy hloggingSaid), ok_bind,
    entry_path h.modelPath, ok_bind,
    Config.entry_of_lookup hsearch (SearchSettings.ofValue_of_saidBy hsearchSaid), ok_bind,
    Config.entry_of_lookup h.version (Config.uint32_toNat s.version), ok_bind,
    entry_path h.workspaceRoot, ok_bind]
  rfl

/-! ## The table of settings -/

/-- The entries of settings, with those that are absent. -/
def entries (s : Settings) : List (String × Option Value) :=
  [("version", some (.integer s.version.toNat)),
    ("model_path", s.modelPath.map .string),
    ("index_path", s.indexPath.map .string),
    ("workspace_root", s.workspaceRoot.map .string),
    ("embedding", some (.table s.embedding.toTable)),
    ("search", some (.table s.search.toTable)),
    ("logging", some (.table s.logging.toTable))]

theorem toTable_eq (s : Settings) : s.toTable = Named.present s.entries := by
  obtain ⟨_, _ | _, _ | _, _ | _, _, _, _⟩ := s <;> rfl

theorem nodup_entries (s : Settings) : (s.entries.map Prod.fst).Nodup :=
  show ["version", "model_path", "index_path", "workspace_root", "embedding", "search",
    "logging"].Nodup by decide

theorem nodup_toTable (s : Settings) : (s.toTable.map Prod.fst).Nodup := by
  rw [toTable_eq]
  exact s.nodup_entries.sublist (Named.names_present_sublist s.entries)

theorem lookup_toTable (s : Settings) (name : String) :
    s.toTable.lookup name = (s.entries.lookup name).join := by
  rw [toTable_eq, Named.lookup_present s.nodup_entries]

theorem saidBy_toTable (s : Settings) : s.SaidBy s.toTable where
  version := s.lookup_toTable "version"
  modelPath := s.lookup_toTable "model_path"
  indexPath := s.lookup_toTable "index_path"
  workspaceRoot := s.lookup_toTable "workspace_root"
  embedding := ⟨_, s.lookup_toTable "embedding", s.embedding.saidBy_toTable⟩
  search := ⟨_, s.lookup_toTable "search", s.search.saidBy_toTable⟩
  logging := ⟨_, s.lookup_toTable "logging", s.logging.saidBy_toTable⟩

/-- An absent path stays absent over a layer that does not have it either. -/
theorem lookup_join_path {s : Settings} {lower : Entries} {name : String} {path : Option String}
    (h : s.toTable.lookup name = path.map .string) (hlower : lower.lookup name = none) :
    (Config.join s.toTable lower).lookup name = path.map .string := by
  cases path with
  | none =>
    rw [Config.lookup_join s.nodup_toTable, h]
    exact hlower
  | some text => exact Config.lookup_join_plain s.nodup_toTable lower h (by rintro _ ⟨⟩)

/-- The table of settings hides every layer below it that has no paths. -/
theorem saidBy_join (s : Settings) {lower : Entries} (hmodel : lower.lookup "model_path" = none)
    (hindex : lower.lookup "index_path" = none) (hroot : lower.lookup "workspace_root" = none) :
    s.SaidBy (Config.join s.toTable lower) where
  version := Config.lookup_join_plain s.nodup_toTable lower s.saidBy_toTable.version
    (by rintro _ ⟨⟩)
  modelPath := lookup_join_path s.saidBy_toTable.modelPath hmodel
  indexPath := lookup_join_path s.saidBy_toTable.indexPath hindex
  workspaceRoot := lookup_join_path s.saidBy_toTable.workspaceRoot hroot
  embedding := by
    obtain h | ⟨below, h⟩ := Config.lookup_join_section s.nodup_toTable lower
      (s.lookup_toTable "embedding")
    · exact ⟨_, h, s.embedding.saidBy_toTable⟩
    · exact ⟨_, h, s.embedding.saidBy_join below⟩
  search := by
    obtain h | ⟨below, h⟩ := Config.lookup_join_section s.nodup_toTable lower
      (s.lookup_toTable "search")
    · exact ⟨_, h, s.search.saidBy_toTable⟩
    · exact ⟨_, h, s.search.saidBy_join below⟩
  logging := by
    obtain h | ⟨below, h⟩ := Config.lookup_join_section s.nodup_toTable lower
      (s.lookup_toTable "logging")
    · exact ⟨_, h, s.logging.saidBy_toTable⟩
    · exact ⟨_, h, s.logging.saidBy_join below⟩

theorem ofTable_toTable (s : Settings) : ofTable s.toTable = .ok s :=
  ofTable_of_saidBy s.saidBy_toTable

/-- Without an environment the settings of a file are what the file says. -/
theorem ofTable_join_defaults (s : Settings) :
    ofTable (Config.join s.toTable ({} : Settings).toTable) = .ok s :=
  ofTable_of_saidBy (s.saidBy_join rfl rfl rfl)

end Settings

end NeighborSearch
