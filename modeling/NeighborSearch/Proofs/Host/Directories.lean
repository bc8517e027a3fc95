import Mathlib.Data.List.Induction
import NeighborSearch.Proofs.Host.Machine
import NeighborSearch.Proofs.Host.Plain

/-!
# Making directories

The directories on a way of names are made as long as no file stands on it. Nothing else changes:
no directory is taken away, none is new that does not stand on the way, and there are no new files.
-/

namespace NeighborSearch

/-- No file stands on a way. -/
def Node.IsClear (root : Node) (way : List String) : Prop :=
  ∀ front, front <+: way → ∀ content, root.find? front ≠ some (.file content)

namespace Machine

/-! ## Following plain paths -/

section

variable {root : Node} {base names : List String} {name : String} {absolute : Bool}

/-- Names on a clear way lead to its end or to a directory that is missing. -/
theorem foldlM_missing (hnames : ∀ name ∈ names, IsName name) (hbase : root.IsDirectoryAt base)
    (hclear : root.IsClear (base ++ names)) (h : ¬root.IsDirectoryAt (base ++ names)) :
    names.foldlM (enter root) base = .error .missing := by
  induction names generalizing base with
  | nil =>
    rw [List.append_nil] at h
    exact absurd hbase h
  | cons name names ih =>
    obtain ⟨hname, hrest⟩ := List.forall_mem_cons.1 hnames
    rw [List.append_cons] at hclear h
    rw [List.foldlM_cons]
    by_cases hnext : root.IsDirectoryAt (base ++ [name])
    · rw [enter_name hname.nonempty hname.dot hname.dots (checkName_of_isName hname) hnext, ok_bind]
      exact ih hrest hnext hclear h
    · have hstay : ¬(name = "" ∨ name = ".") := not_or.2 ⟨hname.nonempty, hname.dot⟩
      have hmissing : root.find? (base ++ [name]) = none := by
        cases hfound : root.find? (base ++ [name]) with
        | none => rfl
        | some node =>
          cases node with
          | file content => exact absurd hfound (hclear _ (List.prefix_append _ _) content)
          | directory entries => exact absurd ⟨entries, hfound⟩ hnext
      rw [enter, if_neg hstay, if_neg hname.dots, checkName_of_isName hname, ok_bind, hmissing]
      rfl

theorem walk_concat (hname : IsName name) (slashed : Bool) :
    walk root base (names ++ [name]) slashed
      = (do return ⟨← names.foldlM (enter root) base, some name, slashed⟩) := by
  have hdots : ¬(name = "." ∨ name = "..") := not_or.2 ⟨hname.dot, hname.dots⟩
  rw [walk, List.dropLast_concat, List.getLast?_concat]
  simp only [if_neg hdots]

end

/-- Names that make a plain path of a file or a directory. -/
structure IsPlain (absolute : Bool) (names : List String) (name : String) : Prop where
  isName : ∀ other ∈ names ++ [name], IsName other
  length : (Path.plain absolute (names ++ [name])).utf8ByteSize ≤ longestPath

/-- Where a plain path starts. -/
def startOf (machine : Machine) (absolute : Bool) : List String :=
  if absolute then [] else machine.workingDirectory

section

variable {machine after : Machine} {absolute : Bool} {names : List String} {name : String}

theorem IsPlain.directories (h : IsPlain absolute names name) : ∀ other ∈ names, IsName other :=
  fun other hother => h.isName other (List.mem_append_left _ hother)

theorem IsPlain.last (h : IsPlain absolute names name) : IsName name :=
  h.isName name List.mem_concat_self

theorem IsPlain.above {last : String} (h : IsPlain absolute (names ++ [last]) name) :
    IsPlain absolute names last where
  isName := h.directories
  length := Nat.le_trans (Path.utf8ByteSize_plain_le absolute (names ++ [last]) name) h.length

theorem IsPlain.isPath (h : IsPlain absolute names name) :
    IsPath (Path.plain absolute (names ++ [name])) where
  nul := Path.nul_notMem_plain h.isName
  length := h.length
  nonempty := by
    intro hempty
    have htext := Path.toList_plain_concat absolute names name
    rw [hempty] at htext
    have hname := (List.append_eq_nil_iff.1 (List.append_eq_nil_iff.1 htext.symm).2).2
    exact Path.toList_ne_nil h.last hname

theorem IsHome.isDirectoryAt_startOf (h : machine.IsHome) (absolute : Bool) :
    machine.root.IsDirectoryAt (machine.startOf absolute) := by
  have hroot : machine.root.IsDirectoryAt ([] ++ machine.workingDirectory) := h.directory
  cases absolute with
  | true => exact hroot.of_append
  | false => exact h.directory

theorem Grows.startOf (h : Grows machine after) (absolute : Bool) :
    after.startOf absolute = machine.startOf absolute := by
  rw [Machine.startOf, Machine.startOf, h.workingDirectory]

theorem locate_plain_eq (h : IsPlain absolute names name) :
    locate machine.root machine.workingDirectory (Path.plain absolute (names ++ [name]))
      = (do return ⟨← names.foldlM (enter machine.root) (machine.startOf absolute), some name,
          false⟩) := by
  rw [locate_eq_walk h.isPath, Path.segments_plain h.directories h.last,
    Path.isSlashed_plain h.last, walk_concat h.last, origin, Path.isAbsolute_plain h.isName, startOf]

theorem locate_plain (h : IsPlain absolute names name)
    (hdirectory : machine.root.IsDirectoryAt (machine.startOf absolute ++ names)) :
    locate machine.root machine.workingDirectory (Path.plain absolute (names ++ [name]))
      = .ok ⟨machine.startOf absolute ++ names, some name, false⟩ := by
  rw [locate_plain_eq h, foldlM_names h.directories hdirectory]
  rfl

theorem locate_plain_missing (h : IsPlain absolute names name) (hhome : machine.IsHome)
    (hclear : machine.root.IsClear (machine.startOf absolute ++ names))
    (hmissing : ¬machine.root.IsDirectoryAt (machine.startOf absolute ++ names)) :
    locate machine.root machine.workingDirectory (Path.plain absolute (names ++ [name]))
      = .error .missing := by
  rw [locate_plain_eq h,
    foldlM_missing h.directories (hhome.isDirectoryAt_startOf absolute) hclear hmissing]
  rfl

end

/-! ## What is made -/

/-- A machine on which the directories on a way were made. -/
structure Makes (machine : Machine) (way : List String) (after : Machine) : Prop where
  grows : Grows machine after
  directory : after.root.IsDirectoryAt way
  /-- New directories stand on the way. -/
  onWay : ∀ other, after.root.IsDirectoryAt other →
    machine.root.IsDirectoryAt other ∨ other <+: way
  /-- There are no new files. -/
  files : ∀ other content, after.root.find? other = some (.file content) →
    machine.root.find? other = some (.file content)

section

variable {machine made after : Machine} {way more : List String}

theorem makes_self (h : machine.root.IsDirectoryAt way) : Makes machine way machine :=
  ⟨.refl machine, h, fun _ => .inl, fun _ _ => id⟩

theorem Makes.trans (h : Makes machine way made) (hmore : Makes made (way ++ more) after) :
    Makes machine (way ++ more) after where
  grows := h.grows.trans hmore.grows
  directory := hmore.directory
  onWay other hother := by
    obtain hmade | hother := hmore.onWay other hother
    · obtain hthere | hother := h.onWay other hmade
      · exact .inl hthere
      · exact .inr (hother.trans (List.prefix_append way more))
    · exact .inr hother
  files other content hother := h.files other content (hmore.files other content hother)

theorem Makes.isClear (h : Makes machine way made) {other : List String}
    (hclear : machine.root.IsClear other) : made.root.IsClear other :=
  fun front hfront content hfile => hclear front hfront content (h.files front content hfile)

/-- A new directory at the end of a way whose other directories are there. -/
theorem makes_put {name : String} (hway : machine.root.IsDirectoryAt way)
    (hnothing : machine.root.find? (way ++ [name]) = none) :
    Makes machine (way ++ [name]) (machine.put (way ++ [name]) (.directory [])) where
  grows := grows_put (Node.not_isDirectoryAt_of_find? hnothing) (.directory [])
  directory := ⟨[], Node.find?_put hway name (.directory [])⟩
  onWay other hother := by
    obtain rfl | hbefore := hother.of_put_directory
    · exact .inr (List.prefix_refl _)
    · exact .inl hbefore
  files _ _ := Node.find?_of_put_directory

end

/-! ## Making them -/

section

variable {machine : Machine} {absolute : Bool} {names : List String} {name : String}

theorem run_makeDirectory (machine : Machine) (path : String) :
    (Host.makeDirectory path : StateM Machine _).run machine
      = match machine.makeDirectory path with
        | .ok after => (.ok (), after)
        | .error error => (.error error, machine) := rfl

theorem run_isDirectory {path : String} (h : machine.status path = some .directory) :
    (Host.isDirectory path : StateM Machine _).run machine = (true, machine) := by
  rw [Host.isDirectory, run_bind_of_run (run_status machine path), h]
  rfl

/-- A directory is made in a directory that is there, unless it is there itself. -/
theorem makeDirectory_plain (h : IsPlain absolute names name)
    (hdirectory : machine.root.IsDirectoryAt (machine.startOf absolute ++ names))
    (hfree : machine.root.IsClear (machine.startOf absolute ++ names ++ [name])) :
    (∃ after, machine.makeDirectory (Path.plain absolute (names ++ [name])) = .ok after
      ∧ Makes machine (machine.startOf absolute ++ names ++ [name]) after)
    ∨ (machine.makeDirectory (Path.plain absolute (names ++ [name])) = .error .alreadyExists
      ∧ machine.status (Path.plain absolute (names ++ [name])) = some .directory
      ∧ machine.root.IsDirectoryAt (machine.startOf absolute ++ names ++ [name])) := by
  have hplace := locate_plain h hdirectory
  have hname := checkName_of_isName h.last
  cases hfound : machine.root.find? (machine.startOf absolute ++ names ++ [name]) with
  | none =>
    refine .inl ⟨_, ?_, makes_put hdirectory hfound⟩
    rw [makeDirectory, hplace, ok_bind, names_eq_ok hname, ok_bind, hfound]
    rfl
  | some node =>
    cases node with
    | file content => exact absurd hfound (hfree _ (List.prefix_refl _) content)
    | directory entries =>
      refine .inr ⟨?_, ?_, entries, hfound⟩
      · rw [makeDirectory, hplace, ok_bind, names_eq_ok hname, ok_bind, hfound]
      · rw [status, node, hplace, ok_bind, names_eq_ok hname, ok_bind, hfound]
        rfl

theorem run_makeUnlessDirectory (h : IsPlain absolute names name)
    (hdirectory : machine.root.IsDirectoryAt (machine.startOf absolute ++ names))
    (hfree : machine.root.IsClear (machine.startOf absolute ++ names ++ [name])) :
    ∃ after, (Host.makeDirectoriesWithin.makeUnlessDirectory
        (Path.plain absolute (names ++ [name])) : StateM Machine _).run machine = (.ok (), after)
      ∧ Makes machine (machine.startOf absolute ++ names ++ [name]) after := by
  rw [Host.makeDirectoriesWithin.makeUnlessDirectory]
  obtain ⟨after, hmake, hmakes⟩ | ⟨hmake, hstatus, hthere⟩ := makeDirectory_plain h hdirectory hfree
  · have hrun := run_makeDirectory machine (Path.plain absolute (names ++ [name]))
    rw [hmake] at hrun
    refine ⟨after, ?_, hmakes⟩
    rw [run_bind_of_run hrun]
    rfl
  · have hrun := run_makeDirectory machine (Path.plain absolute (names ++ [name]))
    rw [hmake] at hrun
    refine ⟨machine, ?_, makes_self hthere⟩
    rw [run_bind_of_run hrun]
    dsimp only
    rw [run_bind_of_run (run_isDirectory hstatus)]
    rfl

/-- The root is a directory. -/
theorem run_makeDirectoriesWithin_root (hhome : machine.IsHome) (depth : Nat) :
    (Host.makeDirectoriesWithin (depth + 1) (Path.plain absolute []) : StateM Machine _).run machine
      = (.ok (), machine) := by
  cases absolute with
  | false => rfl
  | true =>
    have hplace : locate machine.root machine.workingDirectory "/" = .ok ⟨[], none, true⟩ := rfl
    have hnames : Location.names ⟨[], none, true⟩ = .ok [] := rfl
    obtain ⟨entries, hroot⟩ := hhome.isDirectoryAt_startOf true
    have hroot : machine.root.find? [] = some (.directory entries) := hroot
    have hmake : machine.makeDirectory "/" = .error .alreadyExists := by
      rw [makeDirectory, hplace, ok_bind, hnames, ok_bind, hroot]
    have hstatus : machine.status "/" = some .directory := by
      rw [status, node, hplace, ok_bind, hnames, ok_bind, hroot]
      rfl
    have hrun := run_makeDirectory machine "/"
    rw [hmake] at hrun
    rw [show Path.plain true [] = "/" from rfl, Host.makeDirectoriesWithin, if_neg (by decide),
      run_bind_of_run hrun]
    dsimp only
    rw [if_neg (by decide), run_bind_of_run (run_isDirectory hstatus)]
    rfl

/-- The directories on a clear way are made. -/
theorem run_makeDirectoriesWithin {depth : Nat} (hdepth : names.length < depth)
    (hnames : ∀ other ∈ names, IsName other)
    (hlength : (Path.plain absolute names).utf8ByteSize ≤ longestPath) (hhome : machine.IsHome)
    (hclear : machine.root.IsClear (machine.startOf absolute ++ names)) :
    ∃ after, (Host.makeDirectoriesWithin depth (Path.plain absolute names)
        : StateM Machine _).run machine = (.ok (), after)
      ∧ Makes machine (machine.startOf absolute ++ names) after := by
  induction names using List.reverseRecOn generalizing depth with
  | nil =>
    obtain ⟨depth, rfl⟩ := Nat.exists_eq_add_of_lt hdepth
    refine ⟨machine, run_makeDirectoriesWithin_root hhome _, makes_self ?_⟩
    rw [List.append_nil]
    exact hhome.isDirectoryAt_startOf absolute
  | append_singleton names last ih =>
    have hplain : IsPlain absolute names last := ⟨hnames, hlength⟩
    rw [← List.append_assoc] at hclear ⊢
    rw [List.length_append, List.length_singleton] at hdepth
    obtain ⟨depth, rfl⟩ := Nat.exists_eq_add_of_lt hdepth
    have hrun := run_makeDirectory machine (Path.plain absolute (names ++ [last]))
    rw [Host.makeDirectoriesWithin, if_neg hplain.isPath.nonempty]
    by_cases hdirectory : machine.root.IsDirectoryAt (machine.startOf absolute ++ names)
    · obtain ⟨after, hmake, hmakes⟩ | ⟨hmake, hstatus, hthere⟩ :=
        makeDirectory_plain hplain hdirectory hclear
      · rw [hmake] at hrun
        refine ⟨after, ?_, hmakes⟩
        rw [run_bind_of_run hrun]
        rfl
      · rw [hmake] at hrun
        refine ⟨machine, ?_, makes_self hthere⟩
        rw [run_bind_of_run hrun]
        dsimp only
        rw [if_neg (by decide), run_bind_of_run (run_isDirectory hstatus)]
        rfl
    · -- the directories above are made first, and then the last one stands in the last of them
      have habove : machine.root.IsClear (machine.startOf absolute ++ names) :=
        fun front hfront => hclear front (hfront.trans (List.prefix_append _ _))
      have hmake : machine.makeDirectory (Path.plain absolute (names ++ [last]))
          = .error .missing := by
        rw [makeDirectory, locate_plain_missing hplain hhome habove hdirectory]
        rfl
      rw [hmake] at hrun
      have hshorter := Nat.le_trans (Path.utf8ByteSize_plain_le absolute names last) hlength
      obtain ⟨made, hmade, hmakes⟩ :=
        @ih (names.length + 1 + depth) (by omega) hplain.directories hshorter habove
      have hstart := hmakes.grows.startOf absolute
      have hthere := hmakes.directory
      have hfree := hmakes.isClear hclear
      rw [← hstart] at hthere hfree
      obtain ⟨after, hafter, hlast⟩ := run_makeUnlessDirectory hplain hthere hfree
      rw [hstart] at hlast
      refine ⟨after, ?_, hmakes.trans hlast⟩
      rw [run_bind_of_run hrun]
      dsimp only
      rw [if_pos rfl, Path.parent?_plain hplain.directories hplain.last]
      dsimp only
      rw [run_bind_of_run hmade]
      exact hafter

theorem run_makeDirectories (hnames : ∀ other ∈ names, IsName other)
    (hlength : (Path.plain absolute names).utf8ByteSize ≤ longestPath) (hhome : machine.IsHome)
    (hclear : machine.root.IsClear (machine.startOf absolute ++ names)) :
    ∃ after, (Host.makeDirectories (Path.plain absolute names) : StateM Machine _).run machine
        = (.ok (), after)
      ∧ Makes machine (machine.startOf absolute ++ names) after :=
  run_makeDirectoriesWithin (Nat.lt_succ_of_le (Path.length_le_length_plain absolute hnames))
    hnames hlength hhome hclear

/-! ## Writing a file in them -/

/-- A file can be written at a plain path once its directories are made: no file stands on the way
to it, and no directory at it. -/
structure HasPlace (machine : Machine) (absolute : Bool) (names : List String) (name : String) :
    Prop where
  plain : IsPlain absolute names name
  clear : machine.root.IsClear (machine.startOf absolute ++ names)
  free : ¬machine.root.IsDirectoryAt (machine.startOf absolute ++ names ++ [name])

theorem writeFile_plain (h : IsPlain absolute names name)
    (hdirectory : machine.root.IsDirectoryAt (machine.startOf absolute ++ names))
    (hfree : ¬machine.root.IsDirectoryAt (machine.startOf absolute ++ names ++ [name]))
    (content : ByteArray) :
    ∃ after, machine.writeFile (Path.plain absolute (names ++ [name])) content = .ok after := by
  refine ⟨machine.put (machine.startOf absolute ++ names ++ [name]) (.file content), ?_⟩
  rw [writeFile, locate_plain h hdirectory, ok_bind, if_neg Bool.false_ne_true,
    names_eq_ok (checkName_of_isName h.last), ok_bind]
  split
  · next entries hfound => exact absurd ⟨entries, hfound⟩ hfree
  · rfl

/-- The directories of a file are made, and it is written in the last of them. -/
theorem HasPlace.writeFile (h : machine.HasPlace absolute names name) (hhome : machine.IsHome)
    (content : ByteArray) :
    ∃ made after,
      (Host.makeDirectories (Path.plain absolute names) : StateM Machine _).run machine
        = (.ok (), made)
      ∧ made.writeFile (Path.plain absolute (names ++ [name])) content = .ok after := by
  have hshorter := Nat.le_trans (Path.utf8ByteSize_plain_le absolute names name) h.plain.length
  obtain ⟨made, hmade, hmakes⟩ :=
    run_makeDirectories h.plain.directories hshorter hhome h.clear
  have hstart := hmakes.grows.startOf absolute
  have hdirectory := hmakes.directory
  have hfree : ¬made.root.IsDirectoryAt (machine.startOf absolute ++ names ++ [name]) := by
    intro hthere
    obtain hbefore | hway := hmakes.onWay _ hthere
    · exact h.free hbefore
    · -- the way of the file is longer than that of its directory
      have hlength := hway.length_le
      rw [List.length_append, List.length_singleton] at hlength
      omega
  rw [← hstart] at hdirectory hfree
  obtain ⟨after, hafter⟩ := writeFile_plain h.plain hdirectory hfree content
  exact ⟨made, after, hmade, hafter⟩

end

end Machine

end NeighborSearch
