import NeighborSearch.Proofs.Host.Enclosing
import NeighborSearch.Proofs.Settings.Winning

/-!
# The nearest workspace

A workspace is a directory with a settings directory. Settings are loaded from the file of the
nearest workspace around the program and from no other file: where this workspace has none, the
files of the workspaces around it are not looked at. Two searches go up from the working directory,
one for a settings directory and, if there is none, one for a settings file. The second one finds
nothing, as a settings file stands in a settings directory.

A path has a greatest length, so a settings directory or a settings file that is too deep down is
not seen.
-/

namespace NeighborSearch.Settings

open Config (Entries Value)

/-! ## Workspaces -/

/-- The workspace of a machine: of the working directory and those above it the deepest one with a
settings directory. -/
structure IsWorkspace (machine : Machine) (way : List String) : Prop where
  encloses : way <+: machine.workingDirectory
  directory : machine.HasDirectory directoryName way
  nearest : ∀ other, other <+: machine.workingDirectory →
    machine.HasDirectory directoryName other → other <+: way

/-- The way to the workspace, if there is one. -/
def workspace? (machine : Machine) : Option (List String) :=
  (Path.ancestors machine.workingDirectory).find? (machine.HasDirectory directoryName)

/-- The way to the settings file of the workspace at the end of a way. -/
def fileWay (way : List String) : List String :=
  way ++ [directoryName] ++ [fileName]

/-- The layer of the settings file at the end of a way. Where no file stands, or none that can be
reached by a path, the layer is empty. -/
def layerAt (machine : Machine) (way : List String) : Except Config.Way Entries :=
  match machine.root.find? way with
  | some (.file content) =>
    if (Path.ofNames way).utf8ByteSize ≤ longestPath then tableOf content else .ok []
  | _ => .ok []

/-- The layer of the settings file of the workspace. -/
def workspaceLayer (machine : Machine) : Except Config.Way Entries :=
  match workspace? machine with
  | some way => layerAt machine (fileWay way)
  | none => .ok []

section

variable {machine : Machine} {way : List String}

theorem workspace?_eq_some_iff : workspace? machine = some way ↔ IsWorkspace machine way := by
  rw [workspace?, Path.find?_ancestors_eq_some_iff]
  simp only [decide_eq_true_eq]
  exact ⟨fun ⟨encloses, directory, nearest⟩ => ⟨encloses, directory, nearest⟩,
    fun h => ⟨h.encloses, h.directory, h.nearest⟩⟩

theorem workspace?_eq_none_iff :
    workspace? machine = none
      ↔ ∀ way, way <+: machine.workingDirectory → ¬machine.HasDirectory directoryName way := by
  rw [workspace?, Path.find?_ancestors_eq_none_iff]
  simp only [decide_eq_true_eq]

theorem isName_directoryName : IsName directoryName := by decide

theorem isName_fileName : IsName fileName := by decide

/-- The search for a settings directory finds the workspace. -/
theorem run_findWorkspace (hhome : machine.IsHome) :
    (findWorkspace : StateM Machine _).run machine
      = ((workspace? machine).map Path.ofNames, machine) := by
  rw [findWorkspace, run_bind_of_run Host.run_enclosingDirectories]
  exact Host.run_firstWithDirectory isName_directoryName
    fun _ hway => Host.isName_of_mem_ancestors hhome hway

/-! ## Settings files -/

theorem isName_of_mem_fileWay (hway : ∀ name ∈ way, IsName name) :
    ∀ name ∈ fileWay way, IsName name := by
  intro name hname
  obtain hname | hname := List.mem_append.1 hname
  · obtain hname | hname := List.mem_append.1 hname
    · exact hway name hname
    · exact List.mem_singleton.1 hname ▸ isName_directoryName
  · exact List.mem_singleton.1 hname ▸ isName_fileName

theorem fileUnder_ofNames (hway : ∀ name ∈ way, IsName name) :
    fileUnder (Path.ofNames way) = Path.ofNames (fileWay way) := by
  have hdirectory : ∀ name ∈ way ++ [directoryName], IsName name :=
    fun name hname => isName_of_mem_fileWay hway name (List.mem_append_left _ hname)
  rw [fileUnder, Path.join_ofNames hway isName_directoryName,
    Path.join_ofNames hdirectory isName_fileName, fileWay]

/-- At the path of a settings file stands a file if one stands at the end of its way and the path is
not too long. -/
theorem node_fileWay_eq_ok_iff (hway : ∀ name ∈ way, IsName name) {content : ByteArray} :
    machine.node (Path.ofNames (fileWay way)) = .ok (.file content)
      ↔ (Path.ofNames (fileWay way)).utf8ByteSize ≤ longestPath
        ∧ machine.root.find? (fileWay way) = some (.file content) :=
  Machine.node_ofNames_eq_ok_iff (isName_of_mem_fileWay hway)

/-- The settings file of a directory is looked for in this directory only. -/
theorem run_fileLayer_fileUnder (hway : ∀ name ∈ way, IsName name) :
    (fileLayer (fileUnder (Path.ofNames way)) : StateM Machine _).run machine
      = (layerAt machine (fileWay way), machine) := by
  have habsolute : Path.isAbsolute (Path.ofNames (fileWay way)) = true :=
    @Path.isAbsolute_plain true _ (isName_of_mem_fileWay hway)
  rw [fileUnder_ofNames hway]
  by_cases hfile : ∃ content, machine.node (Path.ofNames (fileWay way)) = .ok (.file content)
  · obtain ⟨content, hnode⟩ := hfile
    have hfind : (Host.findFile (Path.ofNames (fileWay way)) : StateM Machine _).run machine
        = (some (Path.ofNames (fileWay way)), machine) := by
      rw [Host.findFile, if_pos habsolute]
      exact Host.run_firstFile hnode []
    obtain ⟨hlength, hfound⟩ := (node_fileWay_eq_ok_iff hway).1 hnode
    rw [run_fileLayer_of_found hfind hnode, layerAt, hfound]
    dsimp only
    rw [if_pos hlength]
  · have hfind : (Host.findFile (Path.ofNames (fileWay way)) : StateM Machine _).run machine
        = (none, machine) := by
      rw [Host.findFile, if_pos habsolute]
      refine Host.run_firstFile_of_not fun path hpath content hnode => ?_
      rw [List.mem_singleton.1 hpath] at hnode
      exact hfile ⟨content, hnode⟩
    rw [run_fileLayer_of_none hfind, layerAt]
    split
    · next content hfound =>
      rw [if_neg fun hlength => hfile ⟨content, (node_fileWay_eq_ok_iff hway).2 ⟨hlength, hfound⟩⟩]
    · rfl

/-- Without a workspace no settings file is found either. -/
theorem run_fileLayer_outside (hhome : machine.IsHome) (hnone : workspace? machine = none) :
    (fileLayer (Path.join directoryName fileName) : StateM Machine _).run machine
      = (.ok [], machine) := by
  refine run_fileLayer_of_none (Host.run_findFile_of_not (by decide) ?_)
  intro way hway content hnode
  have hnames := Host.isName_of_mem_ancestors hhome hway
  have hpath : Path.join (Path.ofNames way) (Path.join directoryName fileName)
      = Path.ofNames (fileWay way) :=
    @Path.join_ofNames_plain way fileName [directoryName] hnames (by decide)
  rw [hpath, node_fileWay_eq_ok_iff hnames] at hnode
  obtain ⟨hlength, hfile⟩ := hnode
  -- the file stands in a settings directory, the path of which is shorter
  have hdirectory : machine.HasDirectory directoryName way :=
    ⟨Node.isDirectoryAt_of_find? hfile,
      Nat.le_trans (Path.utf8ByteSize_plain_le true _ fileName) hlength⟩
  exact workspace?_eq_none_iff.1 hnone way (Path.mem_ancestors_iff.1 hway) hdirectory

/-! ## Loading -/

/-- The file layer of the workspace is loaded. -/
theorem run_fileLayer_workspace (hhome : machine.IsHome) :
    (fileLayer (match (workspace? machine).map Path.ofNames with
      | some root => fileUnder root
      | none => Path.join directoryName fileName) : StateM Machine _).run machine
      = (workspaceLayer machine, machine) := by
  rw [workspaceLayer]
  cases hfound : workspace? machine with
  | none => exact run_fileLayer_outside hhome hfound
  | some way =>
    have hway : ∀ name ∈ way, IsName name :=
      fun name hname => hhome.names name ((workspace?_eq_some_iff.1 hfound).encloses.subset hname)
    exact run_fileLayer_fileUnder hway

/-- Settings that name no workspace take one down. -/
def withRoot (s : Settings) (root : Option String) : Settings :=
  { s with workspaceRoot := s.workspaceRoot <|> root }

theorem outcome_loadFrom_withRoot {path : String} {layer : Except Config.Way Entries}
    (h : (fileLayer path : StateM Machine _).run machine = (layer, machine))
    (root : Option String) :
    outcome (do return withRoot (← loadFrom path) root) machine
      = (do
        let file ← layer
        let s ← ofLayers file machine.environment
        return withRoot s root, machine) := by
  cases layer with
  | error way =>
    have hload : outcome (loadFrom path) machine = (.error way, machine) := outcome_bind_of_error h
    exact outcome_bind_of_error hload
  | ok file =>
    have hload := outcome_loadFrom_of_fileLayer h
    rw [ok_bind]
    cases hread : ofLayers file machine.environment with
    | error way =>
      rw [hread] at hload
      exact outcome_bind_of_error hload
    | ok s =>
      rw [hread] at hload
      exact outcome_bind_of_ok hload

/-- Settings are loaded from the file of the workspace and the environment. -/
theorem outcome_load (hhome : machine.IsHome) :
    outcome load machine = (do
      let file ← workspaceLayer machine
      let s ← ofLayers file machine.environment
      return withRoot s ((workspace? machine).map Path.ofNames), machine) := by
  rw [load, outcome_bind_of_ok (outcome_lift (run_findWorkspace hhome))]
  exact outcome_loadFrom_withRoot (run_fileLayer_workspace hhome) _

/-- Each name stands once in the tables of the file layer. -/
theorem distinct_of_workspaceLayer (hhome : machine.IsHome) {file : Entries}
    (h : workspaceLayer machine = .ok file) : (Value.table file).Distinct := by
  obtain ⟨layer, hrun, hdistinct⟩ := exists_run_fileLayer machine _
  have hsame := hrun.symm.trans (run_fileLayer_workspace hhome)
  exact hdistinct file ((Prod.ext_iff.1 hsame).1.trans h)

end

/-! ## The workspace that settings name -/

section

variable {s : Settings} {entries file : Entries} {environment : List (String × String)}

/-- Only a string over another value is a string. -/
theorem eq_string_of_over {value below : Value} {text : String}
    (h : value.over below = .string text) : value = .string text := by
  cases value with
  | table inner =>
    cases below with
    | table outer =>
      rw [Value.over] at h
      cases h
    | _ => cases h
  | _ =>
    rw [Config.over_of_not_table (by rintro _ ⟨⟩)] at h
    exact h

theorem workspaceRoot_of_ofTable (h : ofTable entries = .ok s) :
    s.workspaceRoot.map .string = entries.lookup "workspace_root" := by
  simp only [ofTable, bind_eq_ok_iff] at h
  obtain ⟨_, _, _, _, _, _, _, _, _, _, _, _, workspaceRoot, hroot, ⟨⟩⟩ := h
  rw [Config.reads_optional_string.entry_eq_ok_iff] at hroot
  exact hroot.trans Option.or_none

/-- The workspace that settings name is the one that the environment says, or else the file. -/
theorem workspaceRoot_of_ofLayers (hfile : (Value.table file).Distinct)
    (h : ofLayers file environment = .ok s) :
    s.workspaceRoot.map .string
      = ((Config.Variable.layer variableWord environment).lookup "workspace_root").or
          (file.lookup "workspace_root") := by
  have hroot := workspaceRoot_of_ofTable h
  have hupper := (Config.Variable.distinct_layer variableWord environment).names
  have hdefault : ({} : Settings).toTable.lookup "workspace_root" = none := rfl
  have hlower : (Config.join file ({} : Settings).toTable).lookup "workspace_root"
      = file.lookup "workspace_root" := by
    rw [Config.lookup_join hfile.names, hdefault]
    cases file.lookup "workspace_root" <;> rfl
  rw [Config.lookup_join hupper, hlower] at hroot
  cases hvalue : (Config.Variable.layer variableWord environment).lookup "workspace_root" with
  | none =>
    rw [hvalue] at hroot
    exact hroot
  | some value =>
    -- the value of the environment stands alone or over that of the file, and is a string
    rw [hvalue] at hroot
    obtain ⟨root, hname, htext⟩ := Option.map_eq_some_iff.1 hroot
    rw [hname, Option.some_or, Option.map_some]
    cases hbelow : file.lookup "workspace_root" with
    | none =>
      rw [hbelow] at htext
      exact congrArg some htext
    | some below =>
      rw [hbelow] at htext
      rw [eq_string_of_over htext.symm]

end

/-! ## What is loaded -/

section

variable {machine : Machine}

/-- The program finds the deepest directory around it that has a settings directory, or none if
there is no such directory. Settings are loaded from the settings file in there, if there is one,
and from no other file. They name the workspace that the environment says, or else the one that the
file says, or else the one that was found. -/
theorem load_nearest (hhome : machine.IsHome) :
    (findWorkspace : StateM Machine _).run machine
      = ((workspace? machine).map Path.ofNames, machine)
    ∧ (∀ way, workspace? machine = some way ↔ IsWorkspace machine way)
    ∧ (workspace? machine = none
      ↔ ∀ way, way <+: machine.workingDirectory → ¬machine.HasDirectory directoryName way)
    ∧ outcome load machine = (do
        let file ← workspaceLayer machine
        let s ← ofLayers file machine.environment
        return withRoot s ((workspace? machine).map Path.ofNames), machine)
    ∧ ∀ s, (outcome load machine).1 = .ok s → ∃ file, workspaceLayer machine = .ok file
      ∧ s.workspaceRoot.map .string
        = (((Config.Variable.layer variableWord machine.environment).lookup "workspace_root").or
            (file.lookup "workspace_root")).or
          ((workspace? machine).map fun way => .string (Path.ofNames way)) := by
  refine ⟨run_findWorkspace hhome, fun _ => workspace?_eq_some_iff, workspace?_eq_none_iff,
    outcome_load hhome, fun s hload => ?_⟩
  rw [outcome_load hhome] at hload
  obtain ⟨file, hfile, hload⟩ := bind_eq_ok_iff.1 hload
  obtain ⟨bare, hbare, hload⟩ := bind_eq_ok_iff.1 hload
  obtain rfl := Except.ok.inj hload
  refine ⟨file, hfile, ?_⟩
  rw [← workspaceRoot_of_ofLayers (distinct_of_workspaceLayer hhome hfile) hbare, withRoot]
  cases bare.workspaceRoot with
  | none =>
    rw [Option.map_none, Option.none_or]
    exact Option.map_map _ _ _
  | some root => rfl

end

/-- A machine with a workspace in another one. The inner one has no settings file, and in the working
directory a file stands under the name of the settings directory. -/
def nested : Machine where
  root := .directory [
    (directoryName, .directory [(fileName, .file "version = 7\n".toUTF8)]),
    ("w", .directory [(directoryName, .directory []),
      ("d", .directory [(directoryName, .file .empty)])])]
  workingDirectory := ["w", "d"]

theorem isHome_nested : nested.IsHome where
  names := by decide
  directory := ⟨_, rfl⟩

theorem load_nested :
    nested.IsHome ∧ IsWorkspace nested ["w"]
    ∧ (findWorkspace : StateM Machine _).run nested = (some "/w", nested)
    ∧ (outcome load nested).1 = .ok { workspaceRoot := some "/w" } := by
  obtain ⟨hfind, hworkspace, -, hload, -⟩ := load_nearest isHome_nested
  have hfound : workspace? nested = some ["w"] := by decide +kernel
  refine ⟨isHome_nested, (hworkspace ["w"]).1 hfound, ?_, ?_⟩
  · rw [hfind, hfound]
    rfl
  · have hlayer : workspaceLayer nested = .ok [] := by
      rw [workspaceLayer, hfound]
      rfl
    rw [hload, hlayer, hfound]
    rfl

/-! ## A settings file that is too deep down -/

/-- A node below many directories. -/
def buried : Nat → Node → Node
  | 0, node => node
  | depth + 1, node => .directory [("d", buried depth node)]

/-- A machine with a workspace below many directories, which is the working directory. -/
def remote (depth : Nat) : Machine where
  root := buried depth
    (.directory [(directoryName, .directory [(fileName, .file "version = 7\n".toUTF8)])])
  workingDirectory := List.replicate depth "d"

section

variable (depth : Nat)

theorem find?_buried (node : Node) (way : List String) :
    (buried depth node).find? (List.replicate depth "d" ++ way) = node.find? way := by
  induction depth with
  | zero => rfl
  | succ depth ih =>
    rw [buried, List.replicate_succ, List.cons_append, Node.find?_cons (by rfl), ih]

theorem isHome_remote : (remote depth).IsHome where
  names name hname := List.eq_of_mem_replicate hname ▸ by decide
  directory := by
    have hfound := find?_buried depth
      (.directory [(directoryName, .directory [(fileName, .file "version = 7\n".toUTF8)])]) []
    rw [List.append_nil] at hfound
    exact ⟨_, hfound⟩

theorem find?_fileWay_remote :
    (remote depth).root.find? (fileWay (List.replicate depth "d"))
      = some (.file "version = 7\n".toUTF8) := by
  rw [fileWay, List.append_assoc, remote, find?_buried]
  rfl

theorem utf8Len_slashedNames_replicate :
    String.utf8Len (Path.slashedNames (List.replicate depth "d")) = 2 * depth := by
  induction depth with
  | zero => rfl
  | succ depth ih =>
    rw [List.replicate_succ', Path.utf8Len_slashedNames_concat, ih]
    rfl

theorem utf8ByteSize_directory :
    (Path.ofNames (List.replicate depth "d" ++ [directoryName])).utf8ByteSize
      = 1 + (2 * depth + 12) := by
  have hpath := Path.utf8ByteSize_plain_concat true (List.replicate depth "d") directoryName
  rw [utf8Len_slashedNames_replicate] at hpath
  exact hpath

theorem utf8ByteSize_fileWay :
    (Path.ofNames (fileWay (List.replicate depth "d"))).utf8ByteSize
      = 1 + (2 * depth + (12 + 1) + 13) := by
  have hpath :=
    Path.utf8ByteSize_plain_concat true (List.replicate depth "d" ++ [directoryName]) fileName
  rw [Path.utf8Len_slashedNames_concat, utf8Len_slashedNames_replicate] at hpath
  exact hpath

/-- The settings directory is seen as long as its path is not too long. -/
theorem workspace?_remote (h : 2 * depth + 13 ≤ longestPath) :
    workspace? (remote depth) = some (List.replicate depth "d") := by
  refine workspace?_eq_some_iff.2 ⟨List.prefix_refl _, ⟨?_, ?_⟩, fun _ hother _ => hother⟩
  · have hfile := find?_fileWay_remote depth
    exact Node.isDirectoryAt_of_find? hfile
  · rw [utf8ByteSize_directory]
    omega

/-- The settings file in it is not seen if its own path is too long. -/
theorem workspaceLayer_remote (h : 2 * depth + 13 ≤ longestPath)
    (hlong : longestPath < 2 * depth + 27) : workspaceLayer (remote depth) = .ok [] := by
  rw [workspaceLayer, workspace?_remote depth h]
  dsimp only
  rw [layerAt, find?_fileWay_remote]
  dsimp only
  rw [utf8ByteSize_fileWay, if_neg (by omega)]

end

/-- A settings file stands in the settings directory of the nearest workspace and says a version, and
settings are loaded without it. -/
theorem load_remote :
    (remote 2035).IsHome
    ∧ (findWorkspace : StateM Machine _).run (remote 2035)
      = (some (Path.ofNames (List.replicate 2035 "d")), remote 2035)
    ∧ (remote 2035).root.find? (fileWay (List.replicate 2035 "d"))
      = some (.file "version = 7\n".toUTF8)
    ∧ tableOf "version = 7\n".toUTF8 = .ok [("version", .integer 7)]
    ∧ ofLayers [("version", .integer 7)] (remote 2035).environment = .ok { version := 7 }
    ∧ (outcome load (remote 2035)).1
      = .ok { version := 1, workspaceRoot := some (Path.ofNames (List.replicate 2035 "d")) } := by
  have hhome := isHome_remote 2035
  have hfound := workspace?_remote 2035 (by decide)
  have hfind := run_findWorkspace hhome
  rw [hfound] at hfind
  have htable : tableOf "version = 7\n".toUTF8 = .ok [("version", .integer 7)] := by
    have hread : Toml.read? fileDialect "version = 7\n" = some [("version", .integer 7)] := by
      cbv
    rw [tableOf, Index.fromUTF8?_eq_some_iff.2 rfl, Option.bind_some, hread]
  refine ⟨hhome, hfind, find?_fileWay_remote 2035, htable, rfl, ?_⟩
  rw [outcome_load hhome, workspaceLayer_remote 2035 (by decide) (by decide), hfound]
  rfl

end NeighborSearch.Settings
