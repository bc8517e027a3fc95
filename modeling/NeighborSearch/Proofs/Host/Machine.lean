import NeighborSearch.Proofs.Host.Join
import NeighborSearch.Proofs.World

/-!
# What programs leave on a machine

Making directories takes nothing away from a machine. A file that is written stands where its path
leads, and a text that leads to the same place finds it there.
-/

namespace NeighborSearch.Machine

/-- A machine whose working directory is there. -/
structure IsHome (machine : Machine) : Prop where
  names : ∀ name ∈ machine.workingDirectory, IsName name
  directory : machine.root.IsDirectoryAt machine.workingDirectory

/-! ## Nothing is taken away -/

/-- A machine later on: it has the same working directory and environment, and all directories that
it had before. -/
structure Grows (before after : Machine) : Prop where
  workingDirectory : after.workingDirectory = before.workingDirectory
  environment : after.environment = before.environment
  covers : Covers before.root after.root

section

variable {machine after last : Machine}

theorem Grows.refl (machine : Machine) : Grows machine machine :=
  ⟨rfl, rfl, fun _ h => h⟩

theorem Grows.trans (h : Grows machine after) (hlast : Grows after last) : Grows machine last where
  workingDirectory := hlast.workingDirectory.trans h.workingDirectory
  environment := hlast.environment.trans h.environment
  covers way hway := hlast.covers way (h.covers way hway)

theorem Grows.isHome (h : Grows machine after) (hhome : machine.IsHome) : after.IsHome where
  names := by
    rw [h.workingDirectory]
    exact hhome.names
  directory := by
    rw [h.workingDirectory]
    exact h.covers _ hhome.directory

/-- A path leads where it led before. -/
theorem Grows.locate (h : Grows machine after) {path : String} {place : Location}
    (hplace : Machine.locate machine.root machine.workingDirectory path = .ok place) :
    Machine.locate after.root after.workingDirectory path = .ok place := by
  obtain ⟨hpath, hwalk⟩ := locate_eq_ok_iff.1 hplace
  rw [locate_eq_ok_iff, h.workingDirectory]
  exact ⟨hpath, walk_of_covers h.covers hwalk⟩

theorem grows_put {names : List String} (h : ¬machine.root.IsDirectoryAt names) (node : Node) :
    Grows machine (machine.put names node) :=
  ⟨rfl, rfl, fun _ hway => hway.put h node⟩

theorem grows_makeDirectory {path : String} (h : machine.makeDirectory path = .ok after) :
    Grows machine after := by
  obtain ⟨place, _, h⟩ := bind_eq_ok_iff.1 h
  obtain ⟨names, _, h⟩ := bind_eq_ok_iff.1 h
  split at h
  · cases h
  · next hnothing =>
    obtain rfl := Except.ok.inj h
    exact grows_put (Node.not_isDirectoryAt_of_find? hnothing) (.directory [])

end

/-! ## Programs that take nothing away -/

/-- A program that takes nothing away from any machine. -/
def Growing {α : Type} (program : StateM Machine α) : Prop :=
  ∀ machine, Grows machine (program.run machine).2

section

variable {α β : Type}

theorem growing_pure (a : α) : Growing (pure a) := Grows.refl

theorem Growing.bind {x : StateM Machine α} {f : α → StateM Machine β} (hx : Growing x)
    (hf : ∀ a, Growing (f a)) : Growing (x >>= f) :=
  fun machine => (hx machine).trans (hf _ _)

theorem growing_update {change : Machine → Except FileError Machine}
    (h : ∀ machine after, change machine = .ok after → Grows machine after) :
    Growing (update change) := by
  intro machine
  rw [StateT.run, update]
  split
  · next after hafter => exact h machine after hafter
  · exact .refl machine

theorem growing_makeDirectory (path : String) :
    Growing (Host.makeDirectory path : StateM Machine _) :=
  growing_update fun _ _ => grows_makeDirectory

theorem growing_isDirectory (path : String) : Growing (Host.isDirectory path : StateM Machine _) :=
  Grows.refl

theorem growing_makeUnlessDirectory (path : String) :
    Growing (Host.makeDirectoriesWithin.makeUnlessDirectory path : StateM Machine _) := by
  refine (growing_makeDirectory path).bind fun made => ?_
  cases made with
  | ok => exact growing_pure _
  | error error =>
    refine (growing_isDirectory path).bind fun isDirectory => ?_
    split
    · exact growing_pure _
    · exact growing_pure _

/-- Directories are made from the outermost missing one on, and none is taken away. -/
theorem growing_makeDirectoriesWithin (depth : Nat) (path : String) :
    Growing (Host.makeDirectoriesWithin depth path : StateM Machine _) := by
  induction depth generalizing path with
  | zero => exact growing_pure _
  | succ depth ih =>
    rw [Host.makeDirectoriesWithin]
    split
    · exact growing_pure _
    · refine (growing_makeDirectory path).bind fun made => ?_
      cases made with
      | ok => exact growing_pure _
      | error error =>
        dsimp only
        split
        · cases Path.parent? path with
          | none => exact growing_pure _
          | some above =>
            refine (ih above).bind fun made => ?_
            cases made with
            | error error => exact growing_pure _
            | ok => exact growing_makeUnlessDirectory path
        · refine (growing_isDirectory path).bind fun isDirectory => ?_
          split
          · exact growing_pure _
          · exact growing_pure _

end

/-! ## Writing files -/

section

variable {machine after : Machine} {path : String} {content : ByteArray}

/-- A file is written where no directory stands, under the last name of its path. -/
theorem writeFile_eq_ok (hhome : machine.IsHome) (h : machine.writeFile path content = .ok after) :
    ∃ directory name,
      locate machine.root machine.workingDirectory path = .ok ⟨directory, some name, false⟩
      ∧ checkName name = .ok () ∧ machine.root.IsDirectoryAt directory
      ∧ ¬machine.root.IsDirectoryAt (directory ++ [name])
      ∧ after = machine.put (directory ++ [name]) (.file content) := by
  obtain ⟨⟨directory, name, slashed⟩, hplace, h⟩ := bind_eq_ok_iff.1 h
  have hdirectory : machine.root.IsDirectoryAt directory := by
    obtain ⟨_, hwalk⟩ := locate_eq_ok_iff.1 hplace
    have hroot : machine.root.IsDirectoryAt ([] ++ machine.workingDirectory) := hhome.directory
    refine isDirectoryAt_walk ?_ hwalk
    rw [origin]
    split
    · exact hroot.of_append
    · exact hhome.directory
  cases slashed with
  | true => cases h
  | false =>
    cases name with
    | none =>
      -- without a last name the path leads to a directory, and no file is written there
      obtain ⟨entries, hfound⟩ := hdirectory
      obtain ⟨_, hnames, h⟩ := bind_eq_ok_iff.1 h
      obtain rfl := Except.ok.inj hnames
      rw [hfound] at h
      cases h
    | some name =>
      obtain ⟨names, hnames, h⟩ := bind_eq_ok_iff.1 h
      obtain ⟨⟨⟩, hname, hnames⟩ := bind_eq_ok_iff.1 hnames
      obtain rfl := Except.ok.inj hnames
      refine ⟨directory, name, hplace, hname, hdirectory, ?_⟩
      split at h
      · cases h
      · next hnot =>
        refine ⟨?_, (Except.ok.inj h).symm⟩
        rintro ⟨entries, hfound⟩
        exact hnot entries hfound

theorem run_writeFile (h : machine.writeFile path content = .ok after) :
    (Host.writeFile path content : StateM Machine _).run machine = (.ok (), after) := by
  show (update (·.writeFile path content)).run machine = _
  rw [StateT.run, update, h]

theorem grows_writeFile (hhome : machine.IsHome) (h : machine.writeFile path content = .ok after) :
    Grows machine after := by
  obtain ⟨directory, name, _, _, _, hnot, rfl⟩ := writeFile_eq_ok hhome h
  exact grows_put hnot (.file content)

theorem names_eq_ok {name : String} (h : checkName name = .ok ()) (directory : List String)
    (slashed : Bool) :
    Location.names ⟨directory, some name, slashed⟩ = .ok (directory ++ [name]) := by
  rw [Location.names]
  dsimp only
  rw [h]
  rfl

/-- A text that led where a file was written leads to the file. -/
theorem node_of_writeFile (hhome : machine.IsHome)
    (h : machine.writeFile path content = .ok after) {found : String}
    (hfound : ∀ place, locate machine.root machine.workingDirectory path = .ok place →
      locate machine.root machine.workingDirectory found = .ok place) :
    after.node found = .ok (.file content) := by
  have hgrows := grows_writeFile hhome h
  obtain ⟨directory, name, hplace, hname, hdirectory, hnot, rfl⟩ := writeFile_eq_ok hhome h
  rw [node, hgrows.locate (hfound _ hplace), ok_bind, names_eq_ok hname, ok_bind, put,
    Node.find?_put hdirectory name (.file content)]
  rfl

/-- A file that is written stands at its path joined to the working directory, if that is not too
long for a path. -/
theorem node_join_of_writeFile (hhome : machine.IsHome)
    (hlength :
      (Path.join (Path.ofNames machine.workingDirectory) path).utf8ByteSize ≤ longestPath)
    (h : machine.writeFile path content = .ok after) :
    after.node (Path.join (Path.ofNames machine.workingDirectory) path)
      = .ok (.file content) := by
  refine node_of_writeFile hhome h fun place hplace => ?_
  cases habsolute : Path.isAbsolute path with
  | true =>
    rw [Path.join, if_pos habsolute]
    exact hplace
  | false => exact locate_join hhome.names hhome.directory habsolute hlength hplace

end

/-! ## Finding files -/

section

variable {machine : Machine} {path : String} {content : ByteArray}

theorem run_readFile (h : machine.node path = .ok (.file content)) :
    (Host.readFile path : StateM Machine _).run machine = (.ok content, machine) := by
  show (machine.content .isDirectory path, machine) = _
  rw [Machine.content, h]
  rfl

theorem run_status (machine : Machine) (path : String) :
    (Host.status path : StateM Machine _).run machine = (machine.status path, machine) := rfl

theorem run_isFile (h : machine.node path = .ok (.file content)) :
    (Host.isFile path : StateM Machine _).run machine = (true, machine) := by
  rw [Host.isFile, run_bind_of_run (run_status machine path), status, h]
  rfl

end

end NeighborSearch.Machine
