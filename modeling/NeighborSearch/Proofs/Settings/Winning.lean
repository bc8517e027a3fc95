import NeighborSearch.Proofs.Settings.Leaves
import NeighborSearch.Proofs.Settings.Persistence
import NeighborSearch.Proofs.Toml.Names

/-!
# The value that wins

Each setting has the value that the environment says, or else the one that the settings file says, or
else its default. Whether settings are loaded and which ones depends on these values alone: a value
that another one hides, a name that no setting has, and what is said about other settings of the same
section make no difference.
-/

namespace NeighborSearch.Settings

open Config (Entries Value)

/-- The value that wins for a setting over those of the layers below. -/
def winning (file : Entries) (environment : List (String × String)) (leaf : Leaf) : Option Value :=
  ((Config.Variable.said? variableWord environment leaf.way).or
    ((Value.table file).at? leaf.way)).or (({} : Settings).value leaf)

/-- An environment whose variables do not get in each other's way: no two of them have one way, and
none says a section as a whole or something within a setting. -/
structure IsOrderly (environment : List (String × String)) : Prop where
  distinct : (Config.Variable.ways variableWord environment).Nodup
  sections : ∀ name ∈ sectionNames, [name] ∉ Config.Variable.ways variableWord environment
  leaves : ∀ leaf : Leaf, ∀ way ∈ Config.Variable.ways variableWord environment,
    leaf.way <+: way → way = leaf.way

/-! ## Layers -/

section

variable {file others : Entries} {environment : List (String × String)} {s : Settings}

/-- A setting stands at the top or in a section. -/
theorem Leaf.way_eq (leaf : Leaf) :
    (∃ name, leaf.way = [name]) ∨ ∃ step ∈ sectionNames, ∃ name, leaf.way = [step, name] := by
  cases leaf with
  | version | modelPath | indexPath | workspaceRoot => exact .inl ⟨_, rfl⟩
  | l2Normalize | quantize | maxResults | allowed | denied | level =>
    exact .inr ⟨_, by decide, _, rfl⟩

/-- A variable of an orderly environment says a setting or nothing that leads to it. -/
theorem IsOrderly.eq_way_of_prefix (h : IsOrderly environment) {leaf : Leaf} {way : List String}
    (hway : way ∈ Config.Variable.ways variableWord environment) (hleads : way <+: leaf.way) :
    way = leaf.way := by
  have hne : way ≠ [] := by
    obtain ⟨entry, _, hentry⟩ := List.mem_filterMap.1 hway
    exact Config.Variable.way?_ne_nil hentry
  obtain ⟨name, rest, rfl⟩ := List.exists_cons_of_ne_nil hne
  obtain ⟨top, htop⟩ | ⟨step, hstep, field, hfield⟩ := leaf.way_eq
  · rw [htop] at hleads ⊢
    obtain ⟨rfl, hrest⟩ := List.cons_prefix_cons.1 hleads
    rw [List.prefix_nil.1 hrest]
  · rw [hfield] at hleads ⊢
    obtain ⟨rfl, hrest⟩ := List.cons_prefix_cons.1 hleads
    cases rest with
    | nil => exact absurd hway (h.sections name hstep)
    | cons next rest =>
      obtain ⟨rfl, hnil⟩ := List.cons_prefix_cons.1 hrest
      rw [List.prefix_nil.1 hnil]

theorem IsOrderly.isOpen (h : IsOrderly environment) (leaf : Leaf) :
    (Value.table (Config.Variable.layer variableWord environment)).IsOpen leaf.way :=
  Config.Variable.isOpen_layer fun _ hway => h.eq_way_of_prefix hway

/-- The layer of an orderly environment says of a setting what its variable says. -/
theorem IsOrderly.at?_layer (h : IsOrderly environment) (leaf : Leaf) :
    (Value.table (Config.Variable.layer variableWord environment)).at? leaf.way
      = Config.Variable.said? variableWord environment leaf.way := by
  refine Config.Variable.at?_layer ?_ h.distinct fun way hway => ?_
  · cases leaf <;> exact List.cons_ne_nil _ _
  · rintro (hleads | hleads)
    · exact h.eq_way_of_prefix hway hleads
    · exact h.leaves leaf way hway hleads

theorem hasSections_of_isOpen (h : ∀ leaf : Leaf, (Value.table file).IsOpen leaf.way) :
    HasSections file := by
  intro name hname value hvalue
  simp only [sectionNames, List.mem_cons, List.not_mem_nil, or_false] at hname
  obtain rfl | rfl | rfl := hname
  · exact ((h .quantize).2 value hvalue).1
  · exact ((h .maxResults).2 value hvalue).1
  · exact ((h .level).2 value hvalue).1

theorem hasSections_defaults : HasSections ({} : Settings).toTable := by
  intro name hname value hvalue
  simp only [sectionNames, List.mem_cons, List.not_mem_nil, or_false] at hname
  obtain rfl | rfl | rfl := hname <;> cases hvalue <;> exact ⟨_, rfl⟩

theorem at?_defaults (leaf : Leaf) :
    (Value.table ({} : Settings).toTable).at? leaf.way = ({} : Settings).value leaf := by
  cases leaf <;> rfl

/-- The layers together, of which settings are read. -/
def layers (file : Entries) (environment : List (String × String)) : Entries :=
  Config.join (Config.Variable.layer variableWord environment)
    (Config.join file ({} : Settings).toTable)

theorem ofLayers_eq : ofLayers file environment = ofTable (layers file environment) := rfl

theorem table_layers :
    Value.table (layers file environment)
      = (Value.table (Config.Variable.layer variableWord environment)).over
          ((Value.table file).over (.table ({} : Settings).toTable)) := by
  rw [layers, Value.over, Value.over]

/-- What a reader needs of the layers: a file that says each name once and has tables for sections,
and an orderly environment. -/
structure Layered (file : Entries) (environment : List (String × String)) : Prop where
  names : (Value.table file).Distinct
  sections : HasSections file
  orderly : IsOrderly environment

theorem Layered.isOpen_lower (h : Layered file environment) (leaf : Leaf) :
    ((Value.table file).over (.table ({} : Settings).toTable)).IsOpen leaf.way :=
  (h.sections.isOpen leaf).over (hasSections_defaults.isOpen leaf) h.names

theorem Layered.hasSections (h : Layered file environment) :
    HasSections (layers file environment) := by
  refine hasSections_of_isOpen fun leaf => ?_
  rw [table_layers]
  exact (h.orderly.isOpen leaf).over (h.isOpen_lower leaf) (Config.Variable.distinct_layer _ _)

/-- In the layers together stands the value that wins. -/
theorem Layered.at?_layers (h : Layered file environment) (leaf : Leaf) :
    ((Value.table (layers file environment)).at? leaf.way).map Value.shut
      = (winning file environment leaf).map Value.shut := by
  have hlower := Value.at?_over (h.sections.isOpen leaf) (hasSections_defaults.isOpen leaf) h.names
  rw [at?_defaults] at hlower
  rw [table_layers, Value.at?_over (h.orderly.isOpen leaf) (h.isOpen_lower leaf)
    (Config.Variable.distinct_layer _ _), h.orderly.at?_layer, Option.map_or, hlower,
    ← Option.map_or, winning, Option.or_assoc]

/-- Values with the same outline are the same if one of them is no table. -/
theorem eq_of_map_shut {x y : Option Value} (h : x.map Value.shut = y.map Value.shut)
    (hplain : ∀ entries, x ≠ some (.table entries)) : x = y := by
  cases x with
  | none => rw [Option.map_none, eq_comm, Option.map_eq_none_iff] at h; exact h.symm
  | some value =>
    rw [Option.map_some, eq_comm, Option.map_eq_some_iff] at h
    obtain ⟨other, rfl, hshut⟩ := h
    cases value with
    | table entries => exact absurd rfl (hplain entries)
    | _ => cases other <;> cases hshut; rfl

/-- No setting is a table. -/
theorem value_ne_table (leaf : Leaf) (entries : Entries) : s.value leaf ≠ some (.table entries) := by
  intro h
  have hadmits := admits_value h
  cases leaf <;> cases hadmits

/-- Settings are read from layers exactly if they have all values that win. -/
theorem Layered.ofLayers_eq_ok_iff (h : Layered file environment) :
    ofLayers file environment = .ok s ↔ ∀ leaf, s.value leaf = winning file environment leaf := by
  rw [ofLayers_eq, ofTable_eq_ok_iff h.hasSections]
  refine forall_congr' fun leaf => ?_
  -- the defaults are in the layers already
  have hsame : (((Value.table (layers file environment)).at? leaf.way).or
      (({} : Settings).value leaf)).map Value.shut
        = (winning file environment leaf).map Value.shut := by
    rw [Option.map_or, h.at?_layers, ← Option.map_or, winning, Option.or_assoc, Option.or_self]
  constructor
  · intro hvalue
    rw [← hvalue] at hsame
    exact eq_of_map_shut hsame (value_ne_table leaf)
  · intro hvalue
    rw [← hvalue] at hsame
    exact eq_of_map_shut hsame.symm (value_ne_table leaf)

/-- Settings are read from layers exactly if all values that win have the types of their
settings. -/
theorem Layered.exists_ofLayers_iff (h : Layered file environment) :
    (∃ s, ofLayers file environment = .ok s)
      ↔ ∀ leaf found, winning file environment leaf = some found →
          leaf.kind.admits found = true := by
  simp only [h.ofLayers_eq_ok_iff]
  constructor
  · rintro ⟨s, hvalues⟩ leaf found hfound
    exact admits_value ((hvalues leaf).trans hfound)
  · intro hadmitted
    refine exists_value_eq hadmitted fun leaf hnone => ?_
    rw [winning, Option.or_eq_none_iff] at hnone
    exact hnone.2

/-- Layers with the same values that win come to the same, also where they are refused. -/
theorem Layered.ofLayers_congr {environment' : List (String × String)}
    (h : Layered file environment) (hothers : Layered others environment')
    (hsame : ∀ leaf, winning file environment leaf = winning others environment' leaf) :
    ofLayers file environment = ofLayers others environment' := by
  rw [ofLayers_eq, ofLayers_eq]
  refine ofTable_congr h.hasSections hothers.hasSections fun leaf => ?_
  rw [h.at?_layers, hothers.at?_layers, hsame]

end

/-! ## Loading -/

section

variable {machine : Machine} {path : String} {file : Entries}

/-- Reading a file layer changes nothing, and each name stands once in its tables. -/
theorem exists_run_fileLayer (machine : Machine) (path : String) :
    ∃ layer, (fileLayer path : StateM Machine _).run machine = (layer, machine)
      ∧ ∀ file, layer = .ok file → (Value.table file).Distinct := by
  obtain ⟨found, hfound⟩ := Host.exists_run_findFile machine path
  rw [fileLayer, run_bind_of_run hfound]
  cases found with
  | none =>
    refine ⟨.ok [], rfl, ?_⟩
    rintro _ ⟨⟩
    exact Value.distinct_empty
  | some place =>
    obtain ⟨text, htext⟩ := Host.exists_run_readText machine place
    dsimp only
    rw [run_bind_of_run htext]
    cases text with
    | error e =>
      refine ⟨.error [], rfl, ?_⟩
      rintro _ ⟨⟩
    | ok text =>
      dsimp only
      cases hread : Toml.read? fileDialect text with
      | none =>
        refine ⟨.error [], rfl, ?_⟩
        rintro _ ⟨⟩
      | some entries =>
        refine ⟨.ok entries, rfl, ?_⟩
        rintro _ ⟨⟩
        exact Toml.distinct_of_read? hread

/-- Loading reads the settings of the file layer and the environment. -/
theorem layered_loadFrom (hfile : ((fileLayer path : StateM Machine _).run machine).1 = .ok file)
    (hsections : HasSections file) (horderly : IsOrderly machine.environment) :
    Layered file machine.environment
      ∧ outcome (loadFrom path) machine = (ofLayers file machine.environment, machine) := by
  obtain ⟨layer, hrun, hdistinct⟩ := exists_run_fileLayer machine path
  rw [hrun] at hfile
  obtain rfl : layer = .ok file := hfile
  exact ⟨⟨hdistinct file rfl, hsections, horderly⟩, outcome_loadFrom_of_fileLayer hrun⟩

/-- Settings are loaded exactly if each value that wins has the type of its setting, and then each
setting has the value that wins. What is loaded, or the way to the value that is refused, depends on
nothing but the values that win. -/
theorem loadFrom_of_winning
    (hfile : ((fileLayer path : StateM Machine _).run machine).1 = .ok file)
    (hsections : HasSections file) (horderly : IsOrderly machine.environment) :
    ((∃ s, (outcome (loadFrom path) machine).1 = .ok s)
      ↔ ∀ leaf found, winning file machine.environment leaf = some found →
          leaf.kind.admits found = true)
    ∧ (∀ s, (outcome (loadFrom path) machine).1 = .ok s →
        ∀ leaf, s.value leaf = winning file machine.environment leaf)
    ∧ ∀ (machine' : Machine) (path' : String) (file' : Entries),
        ((fileLayer path' : StateM Machine _).run machine').1 = .ok file' →
        HasSections file' → IsOrderly machine'.environment →
        (∀ leaf, winning file machine.environment leaf
          = winning file' machine'.environment leaf) →
        (outcome (loadFrom path) machine).1 = (outcome (loadFrom path') machine').1 := by
  obtain ⟨hlayered, houtcome⟩ := layered_loadFrom hfile hsections horderly
  rw [houtcome]
  refine ⟨hlayered.exists_ofLayers_iff, fun s hs => hlayered.ofLayers_eq_ok_iff.1 hs, ?_⟩
  intro machine' path' file' hfile' hsections' horderly' hsame
  obtain ⟨hlayered', houtcome'⟩ := layered_loadFrom hfile' hsections' horderly'
  rw [houtcome']
  exact hlayered.ofLayers_congr hlayered' hsame

/-- A settings file whose number of results is no number. -/
def wrongNumber : String :=
  "colour = 1\n[search]\nmax_results = \"many\"\nmetadata_denylist = [\"a\"]\n"

/-- The table of this file. -/
def wrongNumberTable : Entries :=
  [("colour", .integer 1),
    ("search", .table [("max_results", .string "many"),
      ("metadata_denylist", .array [.string "a"])])]

/-- A machine with this settings file, and with variables that say the number of results, a list and
a name that no setting has. -/
def shadowed : Machine where
  root := .directory [("s.toml", .file wrongNumber.toUTF8)]
  workingDirectory := []
  environment := [("ES_SEARCH__MAX_RESULTS", "3"), ("ES_SEARCH__METADATA_DENYLIST", "[b]"),
    ("ES_SEARCH__COLOUR", "2")]

theorem isOrderly_shadowed : IsOrderly shadowed.environment := by
  have hways : Config.Variable.ways variableWord shadowed.environment
      = [["search", "max_results"], ["search", "metadata_denylist"], ["search", "colour"]] := by
    decide +kernel
  constructor
  · rw [hways]
    decide
  · rw [hways]
    decide
  · rw [hways]
    intro leaf
    cases leaf <;> decide

theorem hasSections_wrongNumberTable : HasSections wrongNumberTable := by
  intro name hname value hvalue
  simp only [sectionNames, List.mem_cons, List.not_mem_nil, or_false] at hname
  obtain rfl | rfl | rfl := hname <;> cases hvalue
  exact ⟨_, rfl⟩

/-- The number of the variable hides the text of the file, and its list replaces the other list. -/
theorem loadFrom_shadowed :
    ((fileLayer "/s.toml" : StateM Machine _).run shadowed).1 = .ok wrongNumberTable
    ∧ HasSections wrongNumberTable ∧ IsOrderly shadowed.environment
    ∧ ∃ s, (outcome (loadFrom "/s.toml") shadowed).1 = .ok s
      ∧ ∀ leaf, s.value leaf
        = ({ search := { maxResults := 3, denied := ["b"] } } : Settings).value leaf := by
  have hnode : shadowed.node (Path.join (Path.ofNames shadowed.workingDirectory) "/s.toml")
      = .ok (.file wrongNumber.toUTF8) := rfl
  have hread : Toml.read? fileDialect wrongNumber = some wrongNumberTable := by
    rw [wrongNumber, wrongNumberTable]
    cbv
  have hfile := congrArg Prod.fst (run_fileLayer_of_node hnode hread)
  have hwinning (leaf : Leaf) : winning wrongNumberTable shadowed.environment leaf
      = ({ search := { maxResults := 3, denied := ["b"] } } : Settings).value leaf := by
    cases leaf <;> rfl
  obtain ⟨hloads, hvalues, -⟩ :=
    loadFrom_of_winning hfile hasSections_wrongNumberTable isOrderly_shadowed
  obtain ⟨s, hs⟩ := hloads.2 fun leaf found hfound =>
    admits_value ((hwinning leaf).symm.trans hfound)
  exact ⟨hfile, hasSections_wrongNumberTable, isOrderly_shadowed, s, hs,
    fun leaf => (hvalues s hs leaf).trans (hwinning leaf)⟩

end

end NeighborSearch.Settings
