import NeighborSearch.Proofs.Host.Machine
import NeighborSearch.Settings.Layers

/-!
# Finding files

A relative path is looked up by the absolute path that it makes with the working directory. A file
that stands there is found; a path that is too long together with every directory is found nowhere.
-/

namespace NeighborSearch

namespace Path

/-- The first directory to look in is the working directory. -/
theorem ancestors_eq_cons (names : List String) :
    ∃ above, ancestors names = names :: above := by
  rw [ancestors, List.range_succ, List.reverse_append, List.reverse_singleton,
    List.singleton_append, List.map_cons, List.take_length]
  exact ⟨_, rfl⟩

/-- A path that is joined to a directory gets longer. -/
theorem utf8ByteSize_lt_join {path : String} (hrelative : isAbsolute path = false)
    (names : List String) : path.utf8ByteSize < (join (ofNames names) path).utf8ByteSize := by
  have hstart : 0 < (ofNames names).utf8ByteSize := by
    rw [ofNames, String.utf8ByteSize_append]
    exact Nat.add_pos_left (by decide) _
  rw [join, if_neg (by rw [hrelative]; decide)]
  split
  · rw [String.utf8ByteSize_append]
    omega
  · rw [String.utf8ByteSize_append, String.utf8ByteSize_append]
    omega

end Path

namespace Host

variable {machine : Machine} {path : String} {content : ByteArray}

/-- The directories to look in are the working directory and those above it. -/
theorem run_enclosingDirectories :
    (enclosingDirectories : StateM Machine _).run machine
      = ((Path.ancestors machine.workingDirectory).map Path.ofNames, machine) := rfl

theorem run_firstFile (h : machine.node path = .ok (.file content)) (others : List String) :
    (firstFile (path :: others) : StateM Machine _).run machine = (some path, machine) := by
  rw [firstFile, run_bind_of_run (Machine.run_isFile h)]
  rfl

/-- A file is found at its path joined to the working directory. An absolute path is that path. -/
theorem run_findFile
    (h : machine.node (Path.join (Path.ofNames machine.workingDirectory) path)
      = .ok (.file content)) :
    (findFile path : StateM Machine _).run machine
      = (some (Path.join (Path.ofNames machine.workingDirectory) path), machine) := by
  obtain ⟨above, habove⟩ := Path.ancestors_eq_cons machine.workingDirectory
  rw [findFile]
  split
  · next habsolute =>
    rw [Path.join, if_pos habsolute] at h ⊢
    exact run_firstFile h []
  · rw [run_bind_of_run run_enclosingDirectories, habove, List.map_cons, List.map_cons]
    exact run_firstFile h _

/-- A file is read as the text that its bytes are. -/
theorem run_readText (h : machine.node path = .ok (.file content)) :
    (readText path : StateM Machine _).run machine
      = (match String.fromUTF8? content with
        | some text => .ok text
        | none => .error .notText, machine) := by
  rw [readText, run_bind_of_run (Machine.run_readFile h)]
  rfl

/-! ## Looking changes nothing -/

theorem exists_run_firstFile (machine : Machine) (paths : List String) :
    ∃ found, (firstFile paths : StateM Machine _).run machine = (found, machine) := by
  induction paths with
  | nil => exact ⟨none, rfl⟩
  | cons path paths ih =>
    have hfile : ∃ answer, (isFile path : StateM Machine _).run machine = (answer, machine) :=
      ⟨_, rfl⟩
    obtain ⟨answer, hfile⟩ := hfile
    rw [firstFile, run_bind_of_run hfile]
    cases answer with
    | true => exact ⟨some path, rfl⟩
    | false => exact ih

theorem exists_run_findFile (machine : Machine) (path : String) :
    ∃ found, (findFile path : StateM Machine _).run machine = (found, machine) := by
  rw [findFile]
  split
  · exact exists_run_firstFile machine [path]
  · rw [run_bind_of_run run_enclosingDirectories]
    exact exists_run_firstFile machine _

theorem exists_run_readText (machine : Machine) (path : String) :
    ∃ text, (readText path : StateM Machine _).run machine = (text, machine) :=
  ⟨_, rfl⟩

/-! ## Paths at which no file stands -/

theorem run_isFile_of_not (h : ∀ content, machine.node path ≠ .ok (.file content)) :
    (isFile path : StateM Machine _).run machine = (false, machine) := by
  rw [isFile, run_bind_of_run (Machine.run_status machine path), Machine.status]
  cases hnode : machine.node path with
  | error error => rfl
  | ok node =>
    cases node with
    | file content => exact absurd hnode (h content)
    | directory entries => rfl

theorem run_firstFile_of_not {paths : List String}
    (h : ∀ path ∈ paths, ∀ content, machine.node path ≠ .ok (.file content)) :
    (firstFile paths : StateM Machine _).run machine = (none, machine) := by
  induction paths with
  | nil => rfl
  | cons path paths ih =>
    obtain ⟨hpath, hpaths⟩ := List.forall_mem_cons.1 h
    rw [firstFile, run_bind_of_run (run_isFile_of_not hpath)]
    exact ih hpaths

/-- A relative path is found nowhere if no file stands at it in the working directory or in one
above it. -/
theorem run_findFile_of_not (hrelative : Path.isAbsolute path = false)
    (h : ∀ names ∈ Path.ancestors machine.workingDirectory, ∀ content,
      machine.node (Path.join (Path.ofNames names) path) ≠ .ok (.file content)) :
    (findFile path : StateM Machine _).run machine = (none, machine) := by
  rw [findFile, if_neg (by rw [hrelative]; decide), run_bind_of_run run_enclosingDirectories]
  refine run_firstFile_of_not fun found hfound => ?_
  rw [List.map_map] at hfound
  obtain ⟨names, hnames, rfl⟩ := List.mem_map.1 hfound
  exact h names hnames

/-- A relative path that is as long as a path may be is found nowhere. -/
theorem run_findFile_of_long (hrelative : Path.isAbsolute path = false)
    (hlong : longestPath ≤ path.utf8ByteSize) :
    (findFile path : StateM Machine _).run machine = (none, machine) := by
  refine run_findFile_of_not hrelative fun names _ content hnode => ?_
  obtain ⟨place, hplace, _⟩ := bind_eq_ok_iff.1 hnode
  have hlength := (Machine.locate_eq_ok_iff.1 hplace).1.length
  have hlonger := Path.utf8ByteSize_lt_join hrelative names
  omega

end Host

end NeighborSearch
