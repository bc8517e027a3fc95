import NeighborSearch.Proofs.Host.Machine

/-!
# Machines that refuse

On a real machine an operation on a file can fail although its path leads where it should: the user
is not permitted to do it, or no space is left. A guarded machine refuses any operations on files
that it likes. Whatever it refuses, making directories adds directories at and above their path and
changes nothing else, and a file that is not written is not touched.
-/

namespace NeighborSearch

/-! ## Guarded machines -/

/-- What a program does with a path. -/
inductive Access where
  | look
  | change
deriving DecidableEq, Repr

/-- A machine that refuses some operations on files. A refused operation changes nothing. -/
structure GuardedMachine where
  machine : Machine
  /-- The failure of an operation that is refused on a machine. -/
  refusal : Machine → Access → String → Option FileError
  /-- Operations are not refused for something that is missing. -/
  refusal_ne_missing : ∀ machine access path, refusal machine access path ≠ some .missing

namespace GuardedMachine

variable {α β : Type}

/-- A machine that refuses nothing. -/
def ofMachine (machine : Machine) : GuardedMachine where
  machine := machine
  refusal _ _ _ := none
  refusal_ne_missing := by
    rintro _ _ _ ⟨⟩

/-- The same guard on another machine. -/
def on (guarded : GuardedMachine) (machine : Machine) : GuardedMachine :=
  { guarded with machine := machine }

@[simp] theorem on_on (guarded : GuardedMachine) (first second : Machine) :
    (guarded.on first).on second = guarded.on second := rfl

@[simp] theorem machine_on (guarded : GuardedMachine) (machine : Machine) :
    (guarded.on machine).machine = machine := rfl

/-- Runs a program that is never refused. -/
def lift (program : StateM Machine α) : StateM GuardedMachine α :=
  fun guarded => ((program.run guarded.machine).1, guarded.on (program.run guarded.machine).2)

/-- Runs an operation on a path unless it is refused. -/
def guard (access : Access) (path : String) (operation : StateM Machine (Except FileError α)) :
    StateM GuardedMachine (Except FileError α) :=
  fun guarded =>
    match guarded.refusal guarded.machine access path with
    | some error => (.error error, guarded)
    | none => lift operation guarded

/-- What stands at a path, unless to look there is refused. -/
def status (path : String) : StateM GuardedMachine (Option FileStatus) :=
  fun guarded =>
    match guarded.refusal guarded.machine .look path with
    | some _ => (none, guarded)
    | none => lift (Host.status path) guarded

instance : Host (StateM GuardedMachine) where
  status := status
  readFile path := guard .look path (Host.readFile path)
  mapFile path := guard .look path (Host.mapFile path)
  makeDirectory path := guard .change path (Host.makeDirectory path)
  writeFile path content := guard .change path (Host.writeFile path content)
  workingDirectory := lift Host.workingDirectory
  environment := lift Host.environment
  standardInput := lift Host.standardInput
  write stream text := lift (Host.write stream text)
  clock := lift Host.clock

end GuardedMachine

/-! ## What is added -/

namespace Machine

/-- A path leads to the end of a way down, whether or not anything stands there. -/
def LeadsTo (machine : Machine) (path : String) (way : List String) : Prop :=
  ∃ place, locate machine.root machine.workingDirectory path = .ok place ∧ place.names = .ok way

/-- A machine to which directories were added where some paths lead. Nothing else has changed: no
directory is taken away, and the files are the same and have the same content. -/
structure Adds (before : Machine) (paths : String → Prop) (after : Machine) : Prop where
  rest : after = { before with root := after.root }
  covers : Covers before.root after.root
  files : ∀ way content, after.root.find? way = some (.file content)
    ↔ before.root.find? way = some (.file content)
  onPath : ∀ way, after.root.IsDirectoryAt way →
    before.root.IsDirectoryAt way ∨ ∃ path, paths path ∧ after.LeadsTo path way

section

variable {machine made after : Machine} {paths others : String → Prop} {path : String}

theorem Grows.leadsTo (h : Grows machine after) {way : List String}
    (hway : machine.LeadsTo path way) : after.LeadsTo path way := by
  obtain ⟨place, hplace, hnames⟩ := hway
  exact ⟨place, h.locate hplace, hnames⟩

theorem Adds.grows (h : machine.Adds paths after) : Grows machine after where
  workingDirectory := by rw [h.rest]
  environment := by rw [h.rest]
  covers := h.covers

theorem Adds.refl (machine : Machine) (paths : String → Prop) : machine.Adds paths machine where
  rest := rfl
  covers _ h := h
  files _ _ := Iff.rfl
  onPath _ := .inl

theorem Adds.mono (h : machine.Adds paths after) (hpaths : ∀ path, paths path → others path) :
    machine.Adds others after where
  rest := h.rest
  covers := h.covers
  files := h.files
  onPath way hway := by
    obtain hbefore | ⟨path, hpath, hleads⟩ := h.onPath way hway
    · exact .inl hbefore
    · exact .inr ⟨path, hpaths path hpath, hleads⟩

theorem Adds.trans (h : machine.Adds paths made) (hafter : made.Adds paths after) :
    machine.Adds paths after where
  rest := by
    rw [hafter.rest, h.rest]
  covers way hway := hafter.covers way (h.covers way hway)
  files way content := (hafter.files way content).trans (h.files way content)
  onPath way hway := by
    obtain hmade | hnew := hafter.onPath way hway
    · obtain hbefore | ⟨path, hpath, hleads⟩ := h.onPath way hmade
      · exact .inl hbefore
      · exact .inr ⟨path, hpath, hafter.grows.leadsTo hleads⟩
    · exact .inr hnew

/-- A file that can be read is the same after directories were added. -/
theorem Adds.node_eq (h : machine.Adds paths after) {content : ByteArray}
    (hfile : machine.node path = .ok (.file content)) : after.node path = .ok (.file content) := by
  obtain ⟨place, hplace, hfile⟩ := bind_eq_ok_iff.1 hfile
  obtain ⟨names, hnames, hfile⟩ := bind_eq_ok_iff.1 hfile
  rw [node, h.grows.locate hplace, ok_bind, hnames, ok_bind]
  split at hfile
  · cases hfile
  · next found hfound =>
    rw [(h.files names found).2 hfound]
    exact hfile
  · cases hfile

theorem makeDirectory_of_status (h : machine.status path = some .directory) :
    machine.makeDirectory path = .error .alreadyExists := by
  cases hnode : machine.node path with
  | error error =>
    rw [status, hnode] at h
    cases h
  | ok node =>
    obtain ⟨place, hplace, hnode⟩ := bind_eq_ok_iff.1 hnode
    obtain ⟨names, hnames, hnode⟩ := bind_eq_ok_iff.1 hnode
    rw [makeDirectory, hplace, ok_bind, hnames, ok_bind]
    split
    · rfl
    · next hnothing =>
      rw [hnothing] at hnode
      cases hnode

/-- A directory that is made stands where its path leads. -/
theorem adds_makeDirectory (h : machine.makeDirectory path = .ok after) :
    machine.Adds (· = path) after := by
  have hgrows := grows_makeDirectory h
  obtain ⟨place, hplace, h⟩ := bind_eq_ok_iff.1 h
  obtain ⟨names, hnames, h⟩ := bind_eq_ok_iff.1 h
  split at h
  · cases h
  · next hnothing =>
    obtain rfl := Except.ok.inj h
    refine ⟨rfl, hgrows.covers, fun way content => ⟨Node.find?_of_put_directory, fun hfile => ?_⟩,
      fun way hway => ?_⟩
    · exact Node.find?_put_of_file hnothing hfile (.directory [])
    · obtain rfl | hbefore := hway.of_put_directory
      · exact .inr ⟨path, rfl, place, hgrows.locate hplace, hnames⟩
      · exact .inl hbefore

end

end Machine

/-! ## Programs that only add -/

namespace Path

/-- The paths above a path: the path without its last part, the one above that, and so on. -/
inductive Above (path : String) : String → Prop where
  | parent {above : String} (h : parent? path = some above) : Above path above
  | step {above next : String} (h : Above path above) (hnext : parent? above = some next) :
    Above path next

theorem Above.of_parent {path above other : String} (h : parent? path = some above)
    (hother : Above above other) : Above path other := by
  induction hother with
  | parent hnext => exact .step (.parent h) hnext
  | step _ hnext ih => exact .step ih hnext

end Path

namespace GuardedMachine

/-- A program that adds directories where some paths lead, and changes nothing else. -/
def Adding {α : Type} (paths : String → Prop) (program : StateM GuardedMachine α) : Prop :=
  ∀ guarded, ∃ machine, (program.run guarded).2 = guarded.on machine
    ∧ guarded.machine.Adds paths machine

section

variable {α β : Type} {paths others : String → Prop}

theorem adding_of_keeps {program : StateM GuardedMachine α}
    (h : ∀ guarded, (program.run guarded).2 = guarded) : Adding paths program :=
  fun guarded => ⟨guarded.machine, h guarded, .refl _ paths⟩

theorem adding_pure (a : α) : Adding paths (pure a) :=
  adding_of_keeps fun _ => rfl

theorem Adding.mono {program : StateM GuardedMachine α} (h : Adding paths program)
    (hpaths : ∀ path, paths path → others path) : Adding others program := by
  intro guarded
  obtain ⟨machine, hafter, hadds⟩ := h guarded
  exact ⟨machine, hafter, hadds.mono hpaths⟩

theorem Adding.bind {x : StateM GuardedMachine α} {f : α → StateM GuardedMachine β}
    (hx : Adding paths x) (hf : ∀ a, Adding paths (f a)) : Adding paths (x >>= f) := by
  intro guarded
  obtain ⟨made, hmade, hfirst⟩ := hx guarded
  obtain ⟨machine, hafter, hsecond⟩ := hf (x.run guarded).1 (x.run guarded).2
  -- the second program runs under the same guard on the machine that the first one left
  rw [hmade, machine_on] at hsecond
  refine ⟨machine, ?_, hfirst.trans hsecond⟩
  rw [StateT.run_bind]
  exact hafter.trans (by rw [hmade, on_on])

end

section

variable {path : String}

/-- Looking at a path changes nothing. -/
theorem run_isDirectory_snd (path : String) (guarded : GuardedMachine) :
    ((Host.isDirectory path : StateM GuardedMachine _).run guarded).2 = guarded := by
  show (status path guarded).2 = guarded
  rw [status]
  split
  · rfl
  · rfl

theorem adding_isDirectory {paths : String → Prop} :
    Adding paths (Host.isDirectory path : StateM GuardedMachine _) :=
  adding_of_keeps (run_isDirectory_snd path)

theorem adding_makeDirectory :
    Adding (· = path) (Host.makeDirectory path : StateM GuardedMachine _) := by
  intro guarded
  show ∃ machine, (guard .change path (Host.makeDirectory path) guarded).2 = guarded.on machine ∧ _
  rw [guard]
  split
  · exact ⟨guarded.machine, rfl, .refl _ _⟩
  · refine ⟨_, rfl, ?_⟩
    show guarded.machine.Adds _ (Machine.update (·.makeDirectory path) guarded.machine).2
    rw [Machine.update]
    split
    · next after hafter => exact Machine.adds_makeDirectory hafter
    · exact .refl _ _

theorem adding_makeUnlessDirectory :
    Adding (· = path)
      (Host.makeDirectoriesWithin.makeUnlessDirectory path : StateM GuardedMachine _) := by
  refine adding_makeDirectory.bind fun made => ?_
  cases made with
  | ok => exact adding_pure _
  | error error =>
    refine adding_isDirectory.bind fun isDirectory => ?_
    split
    · exact adding_pure _
    · exact adding_pure _

/-- Directories are made at a path and above it. -/
theorem adding_makeDirectoriesWithin (depth : Nat) (path : String) :
    Adding (fun other => other = path ∨ Path.Above path other)
      (Host.makeDirectoriesWithin depth path : StateM GuardedMachine _) := by
  -- each further step down in `depth` is one step up from the path
  induction depth generalizing path with
  | zero => exact adding_pure _
  | succ depth ih =>
    rw [Host.makeDirectoriesWithin]
    split
    · exact adding_pure _
    · refine (adding_makeDirectory.mono fun _ => .inl).bind fun made => ?_
      cases made with
      | ok => exact adding_pure _
      | error error =>
        dsimp only
        split
        · cases habove : Path.parent? path with
          | none => exact adding_pure _
          | some above =>
            -- what is at or above the path above is above the path
            have hpaths : ∀ other, other = above ∨ Path.Above above other →
                other = path ∨ Path.Above path other := by
              rintro other (rfl | hother)
              · exact .inr (.parent habove)
              · exact .inr (.of_parent habove hother)
            refine ((ih above).mono hpaths).bind fun made => ?_
            cases made with
            | error error => exact adding_pure _
            | ok => exact adding_makeUnlessDirectory.mono fun _ => .inl
        · refine adding_isDirectory.bind fun isDirectory => ?_
          split
          · exact adding_pure _
          · exact adding_pure _

/-! ## Directories that are there -/

/-- A directory that is there is not made. -/
theorem run_makeDirectory_of_status {guarded : GuardedMachine}
    (h : guarded.machine.status path = some .directory) :
    ∃ error ≠ .missing,
      (Host.makeDirectory path : StateM GuardedMachine _).run guarded = (.error error, guarded) := by
  show ∃ error ≠ FileError.missing,
    guard .change path (Host.makeDirectory path) guarded = (.error error, guarded)
  rw [guard]
  cases hrefusal : guarded.refusal guarded.machine .change path with
  | some error =>
    -- with a missing directory the directories above would be tried
    refine ⟨error, ?_, rfl⟩
    rintro rfl
    exact guarded.refusal_ne_missing _ _ _ hrefusal
  | none =>
    refine ⟨.alreadyExists, by decide, ?_⟩
    show ((Machine.update (·.makeDirectory path) guarded.machine).1,
      guarded.on (Machine.update (·.makeDirectory path) guarded.machine).2) = _
    rw [Machine.update, Machine.makeDirectory_of_status h]
    rfl

/-- Neither a directory that is there is made nor one above it, whatever is refused. -/
theorem run_makeDirectories_of_status {guarded : GuardedMachine}
    (h : path = "" ∨ guarded.machine.status path = some .directory) :
    ((Host.makeDirectories path : StateM GuardedMachine _).run guarded).2 = guarded := by
  rw [Host.makeDirectories, Host.makeDirectoriesWithin]
  split
  · rfl
  · next hpath =>
    obtain ⟨error, herror, hrun⟩ := run_makeDirectory_of_status (h.resolve_left hpath)
    rw [run_bind_of_run hrun]
    dsimp only
    rw [if_neg herror, StateT.run_bind]
    have hkeeps := run_isDirectory_snd path guarded
    generalize (Host.isDirectory path : StateM GuardedMachine _).run guarded = answer at hkeeps
    obtain ⟨isDirectory, after⟩ := answer
    cases isDirectory with
    | true => exact hkeeps
    | false => exact hkeeps

end

end GuardedMachine

/-! ## Files that are not written -/

namespace Machine

/-- The way to where a file is written. -/
def fileTarget (machine : Machine) (path : String) : Except FileError (List String) := do
  let place ← locate machine.root machine.workingDirectory path
  if place.slashed then .error .isDirectory
  let names ← place.names
  match machine.root.find? names with
  | some (.directory _) => .error .isDirectory
  | _ => return names

/-- Where a file is written and whether it can be does not depend on what is written. -/
theorem writeFile_eq (machine : Machine) (path : String) (content : ByteArray) :
    machine.writeFile path content
      = (machine.fileTarget path).map fun names => machine.put names (.file content) := by
  rw [writeFile, fileTarget]
  cases locate machine.root machine.workingDirectory path with
  | error _ => rfl
  | ok place =>
    rw [ok_bind, ok_bind]
    split
    · rfl
    · cases place.names with
      | error _ => rfl
      | ok names =>
        simp only [ok_bind]
        cases machine.root.find? names with
        | none => rfl
        | some node => cases node <;> rfl

theorem writeFile_eq_error {machine : Machine} {path : String} {content : ByteArray}
    {error : FileError} (h : machine.writeFile path content = .error error) (other : ByteArray) :
    machine.writeFile path other = .error error := by
  rw [writeFile_eq] at h ⊢
  cases htarget : machine.fileTarget path with
  | error _ =>
    rw [htarget] at h
    cases h
    rfl
  | ok names =>
    rw [htarget] at h
    cases h

end Machine

namespace GuardedMachine

/-- A file that is not written leaves everything as it was, and no other content is written
either. -/
theorem run_writeFile_eq_error {guarded after : GuardedMachine} {path : String}
    {content : ByteArray} {error : FileError}
    (h : (Host.writeFile path content : StateM GuardedMachine _).run guarded
      = (.error error, after)) :
    after = guarded ∧ ∀ other,
      (Host.writeFile path other : StateM GuardedMachine _).run guarded = (.error error, after) := by
  have hrun (content : ByteArray) :
      (Host.writeFile path content : StateM GuardedMachine _).run guarded
        = guard .change path (Machine.update (·.writeFile path content)) guarded := rfl
  simp only [hrun, guard] at h ⊢
  split at h
  · cases h
    exact ⟨rfl, fun _ => rfl⟩
  · have hlift (content : ByteArray) : lift (Machine.update (·.writeFile path content)) guarded
        = ((Machine.update (·.writeFile path content) guarded.machine).1,
          guarded.on (Machine.update (·.writeFile path content) guarded.machine).2) := rfl
    simp only [hlift, Machine.update] at h ⊢
    cases hwrite : guarded.machine.writeFile path content with
    | ok changed =>
      rw [hwrite] at h
      cases h
    | error _ =>
      rw [hwrite] at h
      cases h
      refine ⟨rfl, fun other => ?_⟩
      rw [Machine.writeFile_eq_error hwrite other]

end GuardedMachine

end NeighborSearch
