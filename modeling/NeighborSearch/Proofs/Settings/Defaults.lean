import NeighborSearch.Proofs.Settings.Winning
import NeighborSearch.Settings.Json

/-!
# One set of defaults

What a table of settings leaves out has its default in two ways: the readings of the fields have
defaults of their own, and a settings file is put over the table of the default settings. Both ways
come to the same, for every table and also for one that is refused.
-/

namespace NeighborSearch

open Config (Entries Reading Value)

/-! ## Entries over defaults -/

namespace Config

variable {α : Type} {upper lower : Entries} {name : String} {reading : Reading α} {default : α}

/-- A value replaces what is below it, if that is no table. -/
theorem over_of_not_table_below {below : Value} (h : ∀ entries, below ≠ .table entries)
    (value : Value) : value.over below = value := by
  cases below with
  | table entries => exact absurd rfl (h entries)
  | _ => cases value <;> rfl

/-- An entry whose default stands below it is read as if nothing stood there. -/
theorem entry_join {below : Value} (hnames : (upper.map Prod.fst).Nodup)
    (hbelow : lower.lookup name = some below) (hplain : ∀ entries, below ≠ .table entries)
    (hdefault : reading below = .ok default) :
    entry (join upper lower) name reading default = entry upper name reading default := by
  rw [entry, entry, lookup_join hnames, hbelow]
  cases upper.lookup name with
  | none =>
    dsimp only
    rw [hdefault]
    rfl
  | some value =>
    dsimp only [Option.elim_some]
    rw [over_of_not_table_below hplain]

/-- An entry with nothing below it is read as it stands. -/
theorem entry_join_of_none (hnames : (upper.map Prod.fst).Nodup)
    (hbelow : lower.lookup name = none) :
    entry (join upper lower) name reading default = entry upper name reading default := by
  rw [entry, entry, lookup_join hnames, hbelow]
  cases upper.lookup name <;> rfl

/-- A section whose defaults stand below it is read as if nothing stood there, if its entries are
read so. -/
theorem entry_join_section {defaults : Entries} (hnames : (upper.map Prod.fst).Nodup)
    (hbelow : lower.lookup name = some (.table defaults))
    (hdefault : reading (.table defaults) = .ok default)
    (hsection : ∀ value, upper.lookup name = some value →
      ∃ inner, value = .table inner
        ∧ reading (.table (join inner defaults)) = reading (.table inner)) :
    entry (join upper lower) name reading default = entry upper name reading default := by
  rw [entry, entry, lookup_join hnames, hbelow]
  cases hupper : upper.lookup name with
  | none =>
    dsimp only
    rw [hdefault]
    rfl
  | some value =>
    obtain ⟨inner, rfl, hinner⟩ := hsection value hupper
    dsimp only [Option.elim_some]
    rw [Value.over, hinner]

end Config

/-! ## Sections over defaults -/

section

variable {entries : Entries} (hnames : (entries.map Prod.fst).Nodup)

include hnames

theorem EmbeddingOptions.ofValue_join_defaults :
    ofValue (.table (Config.join entries ({} : EmbeddingOptions).toTable))
      = ofValue (.table entries) := by
  rw [ofValue_table, ofValue_table,
    Config.entry_join hnames rfl (by rintro _ ⟨⟩) (Config.boolean_boolean _),
    Config.entry_join hnames rfl (by rintro _ ⟨⟩) (Config.boolean_boolean _)]

theorem SearchSettings.ofValue_join_defaults :
    ofValue (.table (Config.join entries ({} : SearchSettings).toTable))
      = ofValue (.table entries) := by
  rw [ofValue_table, ofValue_table,
    Config.entry_join hnames rfl (by rintro _ ⟨⟩) (Config.uint64_toNat _),
    Config.entry_join hnames rfl (by rintro _ ⟨⟩) (Config.items_strings 0 []),
    Config.entry_join hnames rfl (by rintro _ ⟨⟩) (Config.items_strings 0 [])]

theorem LogSettings.ofValue_join_defaults :
    ofValue (.table (Config.join entries ({} : LogSettings).toTable))
      = ofValue (.table entries) := by
  rw [ofValue_table, ofValue_table,
    Config.entry_join hnames rfl (by rintro _ ⟨⟩) (Config.string_string _)]

end

/-! ## Settings over defaults -/

namespace Settings

variable {file : Entries} {machine : Machine} {path : String}

/-- Where nothing is said, every field has a default of its own. Together these are the default
settings, whichever way nothing is read. -/
theorem read_nothing : ofTable [] = .ok {} ∧ ofJson? (.object []) = some {} ∧ ofToml? "" = some {} :=
  ⟨rfl, rfl, rfl⟩

/-- A table of settings is read over the default settings as it is read by itself. -/
theorem ofTable_join_defaults_of_sections (hdistinct : (Value.table file).Distinct)
    (hsections : HasSections file) :
    ofTable (Config.join file ({} : Settings).toTable) = ofTable file := by
  have hnames := hdistinct.names
  -- the names of a section stand once, as those of the whole table do
  have hinner {name : String} (hname : name ∈ sectionNames) {value : Value}
      (hvalue : file.lookup name = some value) :
      ∃ inner, value = .table inner ∧ (inner.map Prod.fst).Nodup := by
    obtain ⟨inner, rfl⟩ := hsections name hname value hvalue
    exact ⟨inner, rfl, (hdistinct.lookup hvalue).names⟩
  have hembedding : EmbeddingOptions.ofValue (.table ({} : EmbeddingOptions).toTable) = .ok {} :=
    EmbeddingOptions.ofValue_of_saidBy (EmbeddingOptions.saidBy_toTable _)
  have hlogging : LogSettings.ofValue (.table ({} : LogSettings).toTable) = .ok {} :=
    LogSettings.ofValue_of_saidBy (LogSettings.saidBy_toTable _)
  have hsearch : SearchSettings.ofValue (.table ({} : SearchSettings).toTable) = .ok {} :=
    SearchSettings.ofValue_of_saidBy (SearchSettings.saidBy_toTable _)
  rw [ofTable, ofTable, Config.entry_join_section hnames rfl hembedding, Config.entry_join_of_none hnames rfl,
    Config.entry_join_section hnames rfl hlogging, Config.entry_join_of_none hnames rfl,
    Config.entry_join_section hnames rfl hsearch,
    Config.entry_join hnames rfl (by rintro _ ⟨⟩) (Config.uint32_toNat _),
    Config.entry_join_of_none hnames rfl]
  · intro value hvalue
    obtain ⟨inner, rfl, hnodup⟩ := hinner (by decide) hvalue
    exact ⟨inner, rfl, SearchSettings.ofValue_join_defaults hnodup⟩
  · intro value hvalue
    obtain ⟨inner, rfl, hnodup⟩ := hinner (by decide) hvalue
    exact ⟨inner, rfl, LogSettings.ofValue_join_defaults hnodup⟩
  · intro value hvalue
    obtain ⟨inner, rfl, hnodup⟩ := hinner (by decide) hvalue
    exact ⟨inner, rfl, EmbeddingOptions.ofValue_join_defaults hnodup⟩

/-- Without variables that say settings, a settings file is loaded as its table is read by itself:
both are refused, at the same value, or both come to the same settings. So is every text that says
this table in the dialect of texts. Nothing is said of a text that the two dialects read as different
tables, such as one that only one of them can read. -/
theorem loadFrom_eq_ofTable
    (hfile : ((fileLayer path : StateM Machine _).run machine).1 = .ok file)
    (hsections : HasSections file) (hsilent : IsSilent machine.environment) :
    (outcome (loadFrom path) machine).1 = ofTable file
    ∧ ∀ text, Toml.read? textDialect text = some file →
        ofToml? text = (outcome (loadFrom path) machine).1.toOption := by
  obtain ⟨layer, hrun, hdistinct⟩ := exists_run_fileLayer machine path
  rw [hrun] at hfile
  obtain rfl : layer = .ok file := hfile
  have hload : (outcome (loadFrom path) machine).1 = ofTable file := by
    rw [outcome_loadFrom hsilent hrun]
    exact ofTable_join_defaults_of_sections (hdistinct file rfl) hsections
  refine ⟨hload, fun text htext => ?_⟩
  rw [ofToml?, htext, hload]
  rfl

/-- A settings file that leaves most settings out, and has a name that no setting has in a section
that is not complete. -/
def sparse : String :=
  "version = 2\n[search]\nmax_results = 3\ncolour = [1979-05-27, 0.5]\n"

/-- The table of this file. -/
def sparseTable : Entries :=
  [("version", .integer 2),
    ("search", .table [("max_results", .integer 3), ("colour", .array [.table [], .float])])]

/-- A machine with this settings file, and without variables that say settings. -/
def sparselySet : Machine where
  root := .directory [("s.toml", .file sparse.toUTF8)]
  workingDirectory := []
  environment := [("HOME", "/")]

theorem loadFrom_sparselySet :
    ((fileLayer "/s.toml" : StateM Machine _).run sparselySet).1 = .ok sparseTable
    ∧ HasSections sparseTable ∧ IsSilent sparselySet.environment
    ∧ (outcome (loadFrom "/s.toml") sparselySet).1
      = .ok { version := 2, search := { maxResults := 3 } }
    ∧ ofToml? sparse = some { version := 2, search := { maxResults := 3 } } := by
  have hnode : sparselySet.node (Path.join (Path.ofNames sparselySet.workingDirectory) "/s.toml")
      = .ok (.file sparse.toUTF8) := rfl
  have hread : Toml.read? fileDialect sparse = some sparseTable := by
    rw [sparse, sparseTable]
    cbv
  have htext : Toml.read? textDialect sparse = some sparseTable := by
    rw [sparse, sparseTable]
    cbv
  have hfile := congrArg Prod.fst (run_fileLayer_of_node hnode hread)
  have hsections : HasSections sparseTable := by
    intro name hname value hvalue
    simp only [sectionNames, List.mem_cons, List.not_mem_nil, or_false] at hname
    obtain rfl | rfl | rfl := hname <;> cases hvalue
    exact ⟨_, rfl⟩
  have hsilent : IsSilent sparselySet.environment := by
    intro entry hentry
    obtain rfl := List.mem_singleton.1 hentry
    decide
  obtain ⟨hload, hdirect⟩ := loadFrom_eq_ofTable hfile hsections hsilent
  have hsettings : ofTable sparseTable = .ok { version := 2, search := { maxResults := 3 } } := rfl
  refine ⟨hfile, hsections, hsilent, hload.trans hsettings, ?_⟩
  rw [hdirect sparse htext, hload, hsettings]
  rfl

end Settings

end NeighborSearch
