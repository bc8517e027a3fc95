import NeighborSearch.Proofs.Host.Directories
import NeighborSearch.Proofs.Host.Finding
import NeighborSearch.Proofs.Index.Words
import NeighborSearch.Proofs.Json.Writers
import NeighborSearch.Proofs.Settings.Json
import NeighborSearch.Proofs.Settings.Table
import NeighborSearch.Proofs.Settings.Text
import NeighborSearch.Settings.File
import NeighborSearch.Settings.Layers

/-!
# Settings come back

Settings that are written as JSON or as TOML are read as themselves, and settings that are saved at
a path are loaded from it, as long as the environment says nothing. Loading looks a relative path
up in the working directory by the absolute path that the two make together, so that path must not
be too long.
-/

namespace NeighborSearch.Settings

variable {s : Settings}

/-! ## Texts -/

/-- Any integers will do that hold all versions and the largest number of results. -/
theorem read?_toToml_of_le {dialect : Toml.Dialect} (hdepth : 0 < dialect.depth)
    (hleast : dialect.integers.least ≤ 0) (hversion : 2 ^ 32 - 1 ≤ dialect.integers.greatest)
    (hmax : s.search.maxResults.toNat ≤ dialect.integers.greatest) :
    Toml.read? dialect s.toToml = some s.toTable := by
  have hbound : s.version.toNat < 2 ^ 32 := s.version.toNat_lt
  have holds {n : Nat} (hn : (n : Int) ≤ dialect.integers.greatest) :
      dialect.integers.holds n = true := by
    rw [Toml.IntegerRange.holds, Bool.and_eq_true, decide_eq_true_eq, decide_eq_true_eq]
    exact ⟨hleast.trans (Int.natCast_nonneg n), hn⟩
  exact read?_toToml hdepth (holds (by omega)) (holds hmax)

theorem ofToml?_toToml (s : Settings) : ofToml? s.toToml = some s := by
  have hmax : s.search.maxResults.toNat < 2 ^ 64 := s.search.maxResults.toNat_lt
  have hread : Toml.read? textDialect s.toToml = some s.toTable :=
    read?_toToml_of_le (by decide) (by decide) (by decide) (by
      rw [textDialect]
      dsimp only
      omega)
  rw [ofToml?, hread, Option.bind_some, ofTable_toTable]
  rfl

/-! ## Files -/

section

variable {machine after : Machine} {path : String}

theorem outcome_onFiles {σ α : Type} [Host (StateM σ)] {world : σ}
    (operation : StateM σ (Except FileError α)) :
    outcome (onFiles operation) world
      = ((operation.run world).1.mapError .file, (operation.run world).2) := rfl

theorem grows_makeParents (h : outcome (makeParents path) machine = (.ok (), after)) :
    machine.Grows after := by
  rw [makeParents] at h
  split at h
  · cases h
  · next above _ =>
    rw [outcome_onFiles] at h
    obtain rfl := (Prod.ext_iff.1 h).2
    exact Machine.growing_makeDirectoriesWithin _ above machine

/-- Settings that are saved are the content of a file, which is written once its directories are
there. -/
theorem save_eq_ok (h : outcome (save s path) machine = (.ok (), after)) :
    ∃ made, machine.Grows made ∧ made.writeFile path s.toToml.toUTF8 = .ok after := by
  obtain ⟨⟨⟩, made, hmade, h⟩ := outcome_bind_eq_ok_iff.1 h
  refine ⟨made, grows_makeParents hmade, ?_⟩
  rw [outcome_onFiles] at h
  cases hwritten : made.writeFile path s.toToml.toUTF8 with
  | ok changed =>
    rw [Machine.run_writeFile hwritten] at h
    obtain rfl : changed = after := (Prod.ext_iff.1 h).2
    rfl
  | error error =>
    have hrun : (Host.writeFile path s.toToml.toUTF8 : StateM Machine _).run made
        = (.error error, made) := by
      show (Machine.update (·.writeFile path s.toToml.toUTF8)).run made = _
      rw [StateT.run, Machine.update, hwritten]
    rw [hrun] at h
    cases (Prod.ext_iff.1 h).1

/-- Settings are saved at every plain path that has place for a file, whatever they say. -/
theorem save_of_hasPlace {absolute : Bool} {names : List String} {name : String}
    (h : machine.HasPlace absolute names name) (hhome : machine.IsHome) (s : Settings) :
    ∃ after, outcome (save s (Path.plain absolute (names ++ [name]))) machine
      = (.ok (), after) := by
  obtain ⟨made, after, hmade, hwrite⟩ := h.writeFile hhome s.toToml.toUTF8
  refine ⟨after, outcome_bind_eq_ok_iff.2 ⟨(), made, ?_, ?_⟩⟩
  · rw [makeParents, Path.parent?_plain h.plain.directories h.plain.last]
    dsimp only
    rw [outcome_onFiles, hmade]
    rfl
  · rw [outcome_onFiles, Machine.run_writeFile hwrite]
    rfl

/-- An environment without variables that say settings. -/
def IsSilent (environment : List (String × String)) : Prop :=
  ∀ entry ∈ environment, Config.Variable.way? variableWord entry.1 = none

theorem layer_eq_nil {environment : List (String × String)} (h : IsSilent environment) :
    Config.Variable.layer variableWord environment = [] := by
  rw [Config.Variable.layer]
  induction environment with
  | nil => rfl
  | cons entry rest ih =>
    obtain ⟨hentry, hrest⟩ := List.forall_mem_cons.1 h
    rw [List.foldl_cons]
    simp only [hentry]
    exact ih hrest

/-- Where no settings file is found the layer is empty. -/
theorem run_fileLayer_of_none
    (h : (Host.findFile path : StateM Machine _).run machine = (none, machine)) :
    (fileLayer path : StateM Machine _).run machine = (.ok [], machine) := by
  rw [fileLayer, run_bind_of_run h]
  rfl

/-- The table that the content of a settings file says. -/
def tableOf (content : ByteArray) : Except Config.Way Config.Entries :=
  match (String.fromUTF8? content).bind (Toml.read? fileDialect) with
  | some entries => .ok entries
  | none => .error []

/-- The layer of a settings file is the table that its content says. -/
theorem run_fileLayer_of_found {found : String} {content : ByteArray}
    (hfound : (Host.findFile path : StateM Machine _).run machine = (some found, machine))
    (hnode : machine.node found = .ok (.file content)) :
    (fileLayer path : StateM Machine _).run machine = (tableOf content, machine) := by
  rw [fileLayer, run_bind_of_run hfound]
  dsimp only
  rw [run_bind_of_run (Host.run_readText hnode), tableOf]
  cases String.fromUTF8? content with
  | none => rfl
  | some text =>
    rw [Option.bind_some]
    dsimp only
    cases Toml.read? fileDialect text <;> rfl

theorem run_fileLayer_of_node {text : String} {file : Config.Entries}
    (h : machine.node (Path.join (Path.ofNames machine.workingDirectory) path)
      = .ok (.file text.toUTF8))
    (hread : Toml.read? fileDialect text = some file) :
    (fileLayer path : StateM Machine _).run machine = (.ok file, machine) := by
  have htable : tableOf text.toUTF8 = .ok file := by
    rw [tableOf, Index.fromUTF8?_eq_some_iff.2 rfl, Option.bind_some, hread]
  rw [run_fileLayer_of_found (Host.run_findFile h) h, htable]

/-- The layer of a file that settings are written in is their table. -/
theorem run_fileLayer (hmax : s.search.maxResults.toNat ≤ 2 ^ 63 - 1)
    (h : machine.node (Path.join (Path.ofNames machine.workingDirectory) path)
      = .ok (.file s.toToml.toUTF8)) :
    (fileLayer path : StateM Machine _).run machine = (.ok s.toTable, machine) := by
  have hread : Toml.read? fileDialect s.toToml = some s.toTable :=
    read?_toToml_of_le (by decide) (by decide) (by decide) (by
      rw [fileDialect]
      dsimp only
      omega)
  exact run_fileLayer_of_node h hread

/-- The settings of a file layer and the environment are loaded. -/
theorem outcome_loadFrom_of_fileLayer {file : Config.Entries}
    (h : (fileLayer path : StateM Machine _).run machine = (.ok file, machine)) :
    outcome (loadFrom path) machine = (ofLayers file machine.environment, machine) := by
  have hfile : outcome (ExceptT.mk (fileLayer path : StateM Machine _)) machine
      = (.ok file, machine) := h
  have hvariables : outcome
      (monadLift (Host.environment : StateM Machine _) : ExceptT Config.Way (StateM Machine) _)
      machine = (.ok machine.environment, machine) := rfl
  rw [loadFrom, outcome_bind_of_ok hfile, outcome_bind_of_ok hvariables, outcome_ofExcept]

/-- Without variables that say settings, the settings of a file layer are loaded. -/
theorem outcome_loadFrom (hsilent : IsSilent machine.environment) {file : Config.Entries}
    (h : (fileLayer path : StateM Machine _).run machine = (.ok file, machine)) :
    outcome (loadFrom path) machine
      = (ofTable (Config.join file ({} : Settings).toTable), machine) := by
  rw [outcome_loadFrom_of_fileLayer h, ofLayers, layer_eq_nil hsilent]
  rfl

/-- Settings that are saved are loaded again. -/
theorem loadFrom_of_save (hmax : s.search.maxResults.toNat ≤ 2 ^ 63 - 1) (hhome : machine.IsHome)
    (hsilent : IsSilent machine.environment)
    (hlength :
      (Path.join (Path.ofNames machine.workingDirectory) path).utf8ByteSize ≤ longestPath)
    (h : outcome (save s path) machine = (.ok (), after)) :
    outcome (loadFrom path) after = (.ok s, after) := by
  obtain ⟨made, hmade, hwrite⟩ := save_eq_ok h
  -- saving moves neither the working directory nor the environment
  have hgrows := hmade.trans (Machine.grows_writeFile (hmade.isHome hhome) hwrite)
  have hnode : after.node (Path.join (Path.ofNames after.workingDirectory) path)
      = .ok (.file s.toToml.toUTF8) := by
    rw [← hmade.workingDirectory] at hlength
    rw [hgrows.workingDirectory, ← hmade.workingDirectory]
    exact Machine.node_join_of_writeFile (hmade.isHome hhome) hlength hwrite
  rw [← hgrows.environment] at hsilent
  rw [outcome_loadFrom hsilent (run_fileLayer hmax hnode), ofTable_join_defaults]

/-- Of a relative path that is as long as a path may be only the defaults are loaded, whether a
file stands at it or not. -/
theorem loadFrom_of_long (hsilent : IsSilent machine.environment)
    (hrelative : Path.isAbsolute path = false) (hlong : longestPath ≤ path.utf8ByteSize) :
    outcome (loadFrom path) machine = (.ok {}, machine) := by
  have hlayer : (fileLayer path : StateM Machine _).run machine = (.ok [], machine) :=
    run_fileLayer_of_none (Host.run_findFile_of_long hrelative hlong)
  rw [outcome_loadFrom hsilent hlayer, Config.join, ofTable_toTable]

end

/-- Settings come back from their texts in JSON and in TOML and, as long as no variable says a
setting and the path of the file in the working directory is not too long, from the file they are
saved in. They are saved at every plain path that has place for a file. -/
theorem persists (s : Settings) :
    (RawJson.parse? s.toJson.toCompact).bind ofJson? = some s
    ∧ (RawJson.parse? s.toJson.toPretty).bind ofJson? = some s
    ∧ ofToml? s.toToml = some s
    ∧ (s.search.maxResults.toNat ≤ 2 ^ 63 - 1 →
      ∀ (machine after : Machine) (path : String), machine.IsHome →
        IsSilent machine.environment →
        (Path.join (Path.ofNames machine.workingDirectory) path).utf8ByteSize ≤ longestPath →
        outcome (save s path) machine = (.ok (), after) →
        outcome (loadFrom path) after = (.ok s, after))
    ∧ ∀ (machine : Machine) (absolute : Bool) (names : List String) (name : String),
      machine.IsHome → machine.HasPlace absolute names name →
      ∃ after, outcome (save s (Path.plain absolute (names ++ [name]))) machine
        = (.ok (), after) := by
  refine ⟨?_, ?_, ofToml?_toToml s, ?_, ?_⟩
  · rw [Json.parse?_toCompact, Option.bind_some, ofJson?_toJson]
  · rw [Json.parse?_toPretty, Option.bind_some, ofJson?_toJson]
  · exact fun hmax machine after path => loadFrom_of_save hmax
  · exact fun machine absolute names name hhome hplace => save_of_hasPlace hplace hhome s

/-- A machine with one directory, which is the working directory. -/
def workshop : Machine where
  root := .directory [("w", .directory [])]
  workingDirectory := ["w"]
  environment := [("HOME", "/w")]

theorem isHome_workshop : workshop.IsHome where
  names := by decide
  directory := ⟨[], rfl⟩

theorem isSilent_workshop : IsSilent workshop.environment := by
  intro entry hentry
  obtain rfl := List.mem_singleton.1 hentry
  decide

/-- Settings with texts that take quotes of several kinds. -/
def quoted : Settings where
  version := 7
  modelPath := some "C:\\models\\\"m\".tflite"
  search := { maxResults := 1, denied := ["", "it's\n\"\"\"", "\x00é\r\n"] }
  logging := { level := "'warn'" }

theorem hasPlace_workshop : workshop.HasPlace false ["a", "b"] "settings.toml" where
  plain := ⟨by decide, by decide⟩
  clear := by
    intro front hfront content hfile
    have hway : front ∈ List.inits ["w", "a", "b"] := (List.mem_inits _ _).2 hfront
    simp only [List.inits, List.mem_cons, List.map_cons, List.map_nil, List.not_mem_nil,
      or_false] at hway
    obtain rfl | rfl | rfl | rfl := hway <;> cases hfile
  free := by
    rintro ⟨entries, hfound⟩
    cases hfound

theorem persists_quoted :
    workshop.HasPlace false ["a", "b"] "settings.toml"
    ∧ ∃ after, outcome (save quoted "a/b/settings.toml") workshop = (.ok (), after)
      ∧ outcome (loadFrom "a/b/settings.toml") after = (.ok quoted, after) := by
  obtain ⟨after, hsave⟩ := (persists quoted).2.2.2.2 workshop false ["a", "b"] "settings.toml"
    isHome_workshop hasPlace_workshop
  have hload := (persists quoted).2.2.2.1 (by decide) workshop after "a/b/settings.toml"
    isHome_workshop isSilent_workshop (by decide +kernel) hsave
  exact ⟨hasPlace_workshop, after, hsave, hload⟩

/-! ## A path that is too long to look up -/

/-- A path to a file in the working directory, with any number of slashes. -/
def slashed (slashes : Nat) : String :=
  String.ofList ('.' :: (List.replicate slashes '/' ++ ['s']))

section

variable (n : Nat)

theorem toList_slashed : (slashed n).toList = '.' :: (List.replicate n '/' ++ ['s']) :=
  String.toList_ofList

theorem isAbsolute_slashed : Path.isAbsolute (slashed n) = false := by
  rw [Path.isAbsolute, toList_slashed]
  rfl

theorem utf8ByteSize_slashed : (slashed n).utf8ByteSize = n + 2 := by
  have hslashes : String.utf8Len (List.replicate n '/') = n := by
    induction n with
    | zero => rfl
    | succ n ih => rw [List.replicate_succ, String.utf8Len_cons, ih]; rfl
  rw [slashed, String.utf8ByteSize_ofList, String.utf8Len_cons, String.utf8Len_append, hslashes]
  rfl

theorem pieces_slashed :
    Path.pieces (slashed (n + 1)) = "." :: (List.replicate n "" ++ ["s"]) := by
  have hslashes : Text.splitOn '/' (List.replicate n '/' ++ ['s'])
      = List.replicate n [] ++ [['s']] := by
    induction n with
    | zero => rfl
    | succ n ih => rw [List.replicate_succ, List.cons_append, Text.splitOn, if_pos rfl, ih]; rfl
  have hdot : Text.splitOn '/' ('.' :: '/' :: (List.replicate n '/' ++ ['s']))
      = ['.'] :: (List.replicate n [] ++ [['s']]) := by
    rw [← hslashes]
    rfl
  rw [Path.pieces, toList_slashed, List.replicate_succ, List.cons_append, hdot, List.map_cons,
    List.map_append, List.map_replicate]
  rfl

theorem segments_slashed : Machine.segments (slashed (n + 1)) = [".", "s"] := by
  rw [Machine.segments, pieces_slashed, List.filter_cons_of_pos (by decide), List.filter_append,
    List.filter_replicate_of_neg (by decide)]
  rfl

/-- The directory above the file is written as a dot. -/
theorem parent?_slashed : Path.parent? (slashed (n + 1)) = some "." := by
  have hsilent : (List.replicate n "").filterMap Path.partOfPiece = [] := by
    rw [List.filterMap_replicate_of_none rfl]
  have hparts : Path.parts (slashed (n + 1)) = [.current, .name "s"] := by
    rw [Path.parts, if_neg (by rw [isAbsolute_slashed]; decide), pieces_slashed,
      List.head?_cons, if_pos rfl, List.filterMap_cons_none (by rfl), List.filterMap_append,
      hsilent]
    rfl
  have hdrop : ∀ slashes, Path.dropSilent (List.replicate slashes '/' ++ ['.']) = ['.'] := by
    intro slashes
    induction slashes with
    | zero => rfl
    | succ slashes ih => rw [List.replicate_succ, List.cons_append, Path.dropSilent, ih]
  have habove : Path.withoutLast (slashed (n + 1)) = "." := by
    have hreverse : (slashed (n + 1)).toList.reverse
        = 's' :: '/' :: (List.replicate n '/' ++ ['.']) := by
      rw [toList_slashed, List.reverse_cons, List.reverse_append, List.reverse_replicate,
        List.replicate_succ]
      rfl
    have hstart : (Path.dropSilent ('s' :: '/' :: (List.replicate n '/' ++ ['.']))).dropWhile
        (· ≠ '/') = List.replicate (n + 1) '/' ++ ['.'] := rfl
    rw [Path.withoutLast, hreverse, hstart, hdrop]
    rfl
  rw [Path.parent?, hparts]
  exact congrArg some habove

theorem locate_slashed (h : n + 3 ≤ longestPath) {root : Node} {start : List String} :
    Machine.locate root start (slashed (n + 1)) = .ok ⟨start, some "s", false⟩ := by
  have hnul : '\x00' ∉ (slashed (n + 1)).toList := by
    rw [toList_slashed, List.mem_cons, List.mem_append, List.mem_replicate, List.mem_singleton]
    rintro (h | ⟨_, h⟩ | h) <;> exact absurd h (by decide)
  have hnonempty : slashed (n + 1) ≠ "" := by
    intro hempty
    have hlist := toList_slashed (n + 1)
    rw [hempty] at hlist
    cases hlist
  have hend : Machine.isSlashed (slashed (n + 1)) = false := by
    rw [Machine.isSlashed, toList_slashed, ← List.cons_append, List.getLast?_concat]
    rfl
  rw [Machine.locate_eq_ok_iff, Machine.origin, isAbsolute_slashed, segments_slashed, hend]
  refine ⟨⟨hnul, ?_, hnonempty⟩, rfl⟩
  rw [utf8ByteSize_slashed]
  exact h

/-- Settings are saved at such a path as long as the path itself is not too long. -/
theorem save_slashed (h : n + 3 ≤ longestPath) (s : Settings) :
    outcome (save s (slashed (n + 1))) workshop
      = (.ok (), workshop.put ["w", "s"] (.file s.toToml.toUTF8)) := by
  have hparents : outcome (makeParents (slashed (n + 1))) workshop = (.ok (), workshop) := by
    rw [makeParents, parent?_slashed]
    rfl
  have hwrite : workshop.writeFile (slashed (n + 1)) s.toToml.toUTF8
      = .ok (workshop.put ["w", "s"] (.file s.toToml.toUTF8)) := by
    rw [Machine.writeFile, locate_slashed n h]
    rfl
  have hrun : (Host.writeFile (slashed (n + 1)) s.toToml.toUTF8 : StateM Machine _).run workshop
      = (.ok (), workshop.put ["w", "s"] (.file s.toToml.toUTF8)) :=
    Machine.run_writeFile hwrite
  rw [save, outcome_bind_of_ok hparents, outcome_onFiles, hrun]
  rfl

end

/-- Settings saved at a path of the greatest length are written to a file, and are not found when
they are loaded from the same path. -/
theorem save_longest_not_loaded :
    workshop.IsHome ∧ IsSilent workshop.environment
    ∧ (outcome (save quoted (slashed 4093)) workshop).1 = .ok ()
    ∧ (outcome (loadFrom (slashed 4093))
        (outcome (save quoted (slashed 4093)) workshop).2).1 = .ok {}
    ∧ ({} : Settings) ≠ quoted := by
  have hsave := save_slashed 4092 (by decide) quoted
  have hlong : longestPath ≤ (slashed 4093).utf8ByteSize := by
    rw [utf8ByteSize_slashed]
    decide
  have hload : outcome (loadFrom (slashed 4093))
      (workshop.put ["w", "s"] (.file quoted.toToml.toUTF8)) = (.ok {}, _) :=
    loadFrom_of_long isSilent_workshop (isAbsolute_slashed 4093) hlong
  refine ⟨isHome_workshop, isSilent_workshop, congrArg Prod.fst hsave, ?_, by decide⟩
  rw [hsave]
  dsimp only
  rw [hload]

end NeighborSearch.Settings
