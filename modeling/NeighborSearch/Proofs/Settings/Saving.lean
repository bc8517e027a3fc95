import NeighborSearch.Proofs.Host.Refusals
import NeighborSearch.Proofs.Settings.Persistence

/-!
# Saving that fails

Saving has two steps: the directories above the path are made, and then the file is written. A file
that cannot be written is not touched, but the directories are not taken away again. So a save that
fails leaves every file as it was, and what it leaves behind is at most directories above its path.
-/

namespace NeighborSearch.Settings

section

variable {s : Settings} {path : String} {guarded after : GuardedMachine} {fault : Fault}

/-- Directories are made above the path only. -/
theorem adds_makeParents (path : String) (guarded : GuardedMachine) :
    ∃ machine, (outcome (makeParents path) guarded).2 = guarded.on machine
      ∧ guarded.machine.Adds (Path.Above path) machine := by
  rw [makeParents]
  cases habove : Path.parent? path with
  | none => exact ⟨guarded.machine, rfl, .refl _ _⟩
  | some above =>
    obtain ⟨machine, hafter, hadds⟩ :=
      GuardedMachine.adding_makeDirectoriesWithin (above.length + 1) above guarded
    refine ⟨machine, hafter, hadds.mono ?_⟩
    rintro other (rfl | hother)
    · exact .parent habove
    · exact .of_parent habove hother

/-- None are made if the one right above the path is there. -/
theorem makeParents_of_status
    (h : ∀ above, Path.parent? path = some above →
      above = "" ∨ guarded.machine.status above = some .directory) :
    (outcome (makeParents path) guarded).2 = guarded := by
  rw [makeParents]
  cases habove : Path.parent? path with
  | none => rfl
  | some above => exact GuardedMachine.run_makeDirectories_of_status (h above habove)

/-- A save fails while directories are made or, after that, because the file is not written. -/
theorem save_eq_error (h : outcome (save s path) guarded = (.error fault, after)) :
    after = (outcome (makeParents path) guarded).2
    ∧ ∀ other : Settings, outcome (save other path) guarded = (.error fault, after) := by
  obtain hparents | ⟨⟨⟩, made, hparents, hwrite⟩ := outcome_bind_eq_error_iff.1 h
  · refine ⟨by rw [hparents], fun other => ?_⟩
    rw [save, outcome_bind_of_error hparents]
  · rw [outcome_onFiles] at hwrite
    cases hrun : (Host.writeFile path s.toToml.toUTF8 : StateM GuardedMachine _).run made with
    | mk result last =>
      cases result with
      | ok =>
        rw [hrun] at hwrite
        cases hwrite
      | error error =>
        obtain ⟨rfl, hothers⟩ := GuardedMachine.run_writeFile_eq_error hrun
        rw [hrun] at hwrite
        cases hwrite
        refine ⟨by rw [hparents], fun other => ?_⟩
        rw [save, outcome_bind_of_ok hparents, outcome_onFiles, hothers]
        rfl

/-- A save that fails leaves all files and directories as they were, except for new directories
where paths above its path lead. There are none if the directory right above the path is there or
there is no path above. At a path where a save fails, all settings fail to be saved. -/
theorem save_failed (h : outcome (save s path) guarded = (.error fault, after)) :
    (∃ machine, after = guarded.on machine ∧ guarded.machine.Adds (Path.Above path) machine
      ∧ ∀ file content, guarded.machine.node file = .ok (.file content) →
        machine.node file = .ok (.file content))
    ∧ ((∀ above, Path.parent? path = some above →
        above = "" ∨ guarded.machine.status above = some .directory) → after = guarded)
    ∧ ∀ other : Settings, outcome (save other path) guarded = (.error fault, after) := by
  obtain ⟨rfl, hothers⟩ := save_eq_error h
  obtain ⟨machine, hafter, hadds⟩ := adds_makeParents path guarded
  exact ⟨⟨machine, hafter, hadds, fun _ _ => hadds.node_eq⟩, makeParents_of_status, hothers⟩

end

/-- A machine with a settings file, which refuses to write another one. -/
def locked : GuardedMachine where
  machine := { workshop with
    root := .directory [("w", .directory [("s.toml", .file "version = 7\n".toUTF8)])] }
  refusal _ access path := if access = .change ∧ path = "a/s.toml" then some (.system 13) else none
  refusal_ne_missing _ access path := by
    split
    · decide
    · rintro ⟨⟩

theorem save_locked :
    ∃ after, outcome (save quoted "a/s.toml") locked = (.error (.file (.system 13)), after)
      ∧ after.machine.node "s.toml" = .ok (.file "version = 7\n".toUTF8)
      ∧ after.machine.status "a" = some .directory ∧ locked.machine.status "a" = none
      ∧ ∀ other : Settings,
        outcome (save other "a/s.toml") locked = (.error (.file (.system 13)), after) := by
  have hsave : ∃ after,
      outcome (save quoted "a/s.toml") locked = (.error (.file (.system 13)), after)
      ∧ after.machine.status "a" = some .directory := ⟨_, rfl, rfl⟩
  obtain ⟨after, hsave, hnew⟩ := hsave
  obtain ⟨⟨machine, rfl, _, hfiles⟩, _, hothers⟩ := save_failed hsave
  exact ⟨_, hsave, hfiles "s.toml" _ rfl, hnew, rfl, hothers⟩

/-- A save at a path that ends with a slash fails, and leaves a new directory. -/
theorem save_slash_leaves_directory :
    ∃ after,
      outcome (save quoted ".embedsearch/settings.toml/") (GuardedMachine.ofMachine workshop)
        = (.error (.file .isDirectory), after)
      ∧ workshop.status ".embedsearch" = none
      ∧ after.machine.status ".embedsearch" = some .directory :=
  ⟨_, rfl, rfl, rfl⟩

end NeighborSearch.Settings
