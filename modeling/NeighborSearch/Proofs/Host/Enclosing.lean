import NeighborSearch.Proofs.Host.Directories
import NeighborSearch.Proofs.Host.Finding

/-!
# The directories around a program

What stands at the absolute path of names is what stands at the end of the way that they make, as
long as the path is not too long. So a search through the working directory and those above it stops
at the deepest one of those that have what is looked for.
-/

namespace NeighborSearch

/-! ## Directories above a directory -/

namespace Path

variable {names way : List String} {name : String} {p : List String → Bool}

theorem ancestors_nil : ancestors [] = [[]] := rfl

/-- Above a directory stand the directories around the one that it is in. -/
theorem ancestors_concat (names : List String) (name : String) :
    ancestors (names ++ [name]) = (names ++ [name]) :: ancestors names := by
  have hbelow : ∀ k ∈ (List.range (names.length + 1)).reverse,
      (names ++ [name]).take k = names.take k := by
    intro k hk
    rw [List.mem_reverse, List.mem_range] at hk
    exact List.take_append_of_le_length (Nat.lt_succ_iff.1 hk)
  have hlength : (names ++ [name]).length = names.length + 1 := List.length_append
  have hself : (names ++ [name]).take (names.length + 1) = names ++ [name] := by
    rw [← hlength, List.take_length]
  rw [ancestors, hlength, List.range_succ, List.reverse_append, List.reverse_singleton,
    List.singleton_append, List.map_cons, hself, List.map_congr_left hbelow]
  rfl

theorem mem_ancestors_iff : way ∈ ancestors names ↔ way <+: names := by
  induction names using List.reverseRecOn with
  | nil => rw [ancestors_nil, List.mem_singleton, List.prefix_nil]
  | append_singleton names name ih =>
    rw [ancestors_concat, List.mem_cons, ih, List.prefix_concat_iff]

/-- The first directory of a kind is the deepest one. -/
theorem find?_ancestors_eq_some_iff :
    (ancestors names).find? p = some way
      ↔ way <+: names ∧ p way = true ∧ ∀ other, other <+: names → p other = true → other <+: way := by
  -- the directories above are those of the names without the last one
  induction names using List.reverseRecOn with
  | nil =>
    rw [ancestors_nil, List.find?_singleton]
    simp only [List.prefix_nil]
    constructor
    · intro h
      split at h
      · next hp =>
        obtain rfl := Option.some.inj h
        exact ⟨rfl, hp, fun other hother _ => hother ▸ List.prefix_refl _⟩
      · cases h
    · rintro ⟨rfl, hp, _⟩
      rw [if_pos hp]
  | append_singleton names name ih =>
    rw [ancestors_concat]
    cases hp : p (names ++ [name]) with
    | true =>
      rw [List.find?_cons_of_pos hp]
      constructor
      · intro h
        obtain rfl := Option.some.inj h
        exact ⟨List.prefix_refl _, hp, fun other hother _ => hother⟩
      · rintro ⟨hway, _, hdeepest⟩
        have hsame := hway.eq_of_length_le (hdeepest _ (List.prefix_refl _) hp).length_le
        rw [hsame]
    | false =>
      have hnot : ¬p (names ++ [name]) = true := by
        rw [hp]
        exact Bool.false_ne_true
      rw [List.find?_cons_of_neg hnot, ih]
      constructor
      · rintro ⟨hway, hpway, hdeepest⟩
        refine ⟨hway.trans (List.prefix_append _ _), hpway, fun other hother hpother => ?_⟩
        obtain rfl | hother := List.prefix_concat_iff.1 hother
        · exact absurd hpother hnot
        · exact hdeepest other hother hpother
      · rintro ⟨hway, hpway, hdeepest⟩
        obtain rfl | hway := List.prefix_concat_iff.1 hway
        · exact absurd hpway hnot
        · exact ⟨hway, hpway, fun other hother =>
            hdeepest other (hother.trans (List.prefix_append _ _))⟩

theorem find?_ancestors_eq_none_iff :
    (ancestors names).find? p = none ↔ ∀ way, way <+: names → ¬p way = true := by
  rw [List.find?_eq_none]
  simp only [mem_ancestors_iff]

/-! ## Absolute paths -/

/-- The path of a directory joined with names in it is the path of those names. -/
theorem join_ofNames_plain {names : List String} (hway : ∀ name ∈ way, IsName name)
    (hnames : ∀ other ∈ names ++ [name], IsName other) :
    join (ofNames way) (plain false (names ++ [name])) = ofNames (way ++ names ++ [name]) := by
  apply String.toList_injective
  rw [Machine.toList_join hway (isAbsolute_plain hnames), toList_plain_concat]
  show _ = (plain true (way ++ names ++ [name])).toList
  rw [toList_plain_concat, slashedNames, slashedNames, List.map_append, List.flatMap_append,
    List.append_assoc]
  rfl

theorem join_ofNames (hway : ∀ name ∈ way, IsName name) (hname : IsName name) :
    join (ofNames way) name = ofNames (way ++ [name]) := by
  have hnames : ∀ other ∈ [] ++ [name], IsName other := by
    rintro other hother
    exact List.mem_singleton.1 hother ▸ hname
  have hplain : plain false ([] ++ [name]) = name := by
    rw [plain, List.nil_append]
    apply String.toList_injective
    simp
  have hjoin := join_ofNames_plain hway hnames
  rwa [hplain, List.append_nil] at hjoin

end Path

/-! ## What stands at them -/

namespace Node

variable {root : Node} {way more : List String}

instance (root : Node) (way : List String) : Decidable (root.IsDirectoryAt way) :=
  match h : root.find? way with
  | some (.directory entries) => isTrue ⟨entries, h⟩
  | some (.file _) => isFalse (by
      rintro ⟨entries, hfound⟩
      rw [h] at hfound
      cases hfound)
  | none => isFalse (not_isDirectoryAt_of_find? h)

/-- What stands below something stands in a directory. -/
theorem isDirectoryAt_of_find? {name : String} {node : Node}
    (h : root.find? (way ++ name :: more) = some node) : root.IsDirectoryAt way := by
  induction way generalizing root with
  | nil =>
    obtain ⟨entries, _, rfl, _⟩ := directory_of_find?_cons h
    exact ⟨entries, by rw [find?]⟩
  | cons step way ih =>
    obtain ⟨entries, next, rfl, hnext, h⟩ := directory_of_find?_cons h
    obtain ⟨found, hfound⟩ := ih h
    exact ⟨found, by rw [find?_cons hnext, hfound]⟩

end Node

namespace Machine

variable {machine : Machine} {names way : List String} {name : String}

/-- Names lead nowhere but down. -/
theorem eq_append_of_foldlM {root : Node} {before found : List String}
    (hnames : ∀ name ∈ names, IsName name) (h : names.foldlM (enter root) before = .ok found) :
    found = before ++ names := by
  induction names generalizing before with
  | nil =>
    rw [List.append_nil]
    exact (Except.ok.inj h).symm
  | cons name names ih =>
    obtain ⟨hname, hrest⟩ := List.forall_mem_cons.1 hnames
    rw [List.foldlM_cons] at h
    obtain ⟨next, hnext, h⟩ := bind_eq_ok_iff.1 h
    obtain ⟨hstay, _⟩ | ⟨hup, _⟩ | ⟨_, _, rfl⟩ := enter_cases hnext
    · exact absurd hstay (not_or.2 ⟨hname.nonempty, hname.dot⟩)
    · exact absurd hup hname.dots
    · rw [List.append_cons]
      exact ih hrest h

/-- At the path of names stands what stands at the end of their way, if the path is not too long. -/
theorem node_ofNames_eq_ok_iff (hnames : ∀ other ∈ names ++ [name], IsName other) {node : Node} :
    machine.node (Path.ofNames (names ++ [name])) = .ok node
      ↔ (Path.ofNames (names ++ [name])).utf8ByteSize ≤ longestPath
        ∧ machine.root.find? (names ++ [name]) = some node := by
  have hlook (hplace : locate machine.root machine.workingDirectory
        (Path.ofNames (names ++ [name])) = .ok ⟨names, some name, false⟩) :
      machine.node (Path.ofNames (names ++ [name])) = .ok node
        ↔ machine.root.find? (names ++ [name]) = some node := by
    have hname := hnames name List.mem_concat_self
    rw [Machine.node, hplace, ok_bind, names_eq_ok (checkName_of_isName hname), ok_bind]
    cases machine.root.find? (names ++ [name]) with
    | none => exact iff_of_false (fun h => by cases h) (fun h => by cases h)
    | some found =>
      cases found <;>
        exact ⟨fun h => congrArg some (Except.ok.inj h),
          fun h => congrArg Except.ok (Option.some.inj h)⟩
  constructor
  · intro h
    obtain ⟨place, hplace, _⟩ := bind_eq_ok_iff.1 h
    have hlength := (locate_eq_ok_iff.1 hplace).1.length
    have hplain : IsPlain true names name := ⟨hnames, hlength⟩
    have hwalk := (@locate_plain_eq machine true names name hplain).symm.trans hplace
    obtain ⟨found, hfound, hend⟩ := bind_eq_ok_iff.1 hwalk
    obtain rfl := eq_append_of_foldlM hplain.directories hfound
    obtain rfl := Except.ok.inj hend
    exact ⟨hlength, (hlook hplace).1 h⟩
  · rintro ⟨hlength, hfound⟩
    -- something that stands there stands in a directory, which the path leads to
    have hdirectory : machine.root.IsDirectoryAt names := Node.isDirectoryAt_of_find? hfound
    exact (hlook (@locate_plain machine true names name ⟨hnames, hlength⟩ hdirectory)).2 hfound

theorem status_eq_directory_iff {path : String} :
    machine.status path = some .directory
      ↔ ∃ entries, machine.node path = .ok (.directory entries) := by
  rw [status]
  cases machine.node path with
  | error error => simp
  | ok node => cases node <;> simp

/-- A directory of some name stands in a directory, at a path that is not too long. -/
structure HasDirectory (machine : Machine) (name : String) (way : List String) : Prop where
  directory : machine.root.IsDirectoryAt (way ++ [name])
  length : (Path.ofNames (way ++ [name])).utf8ByteSize ≤ longestPath

instance (machine : Machine) (name : String) (way : List String) :
    Decidable (machine.HasDirectory name way) :=
  decidable_of_iff (machine.root.IsDirectoryAt (way ++ [name])
      ∧ (Path.ofNames (way ++ [name])).utf8ByteSize ≤ longestPath)
    ⟨fun ⟨directory, length⟩ => ⟨directory, length⟩, fun h => ⟨h.directory, h.length⟩⟩

theorem status_ofNames_eq_directory_iff (hnames : ∀ other ∈ way ++ [name], IsName other) :
    machine.status (Path.ofNames (way ++ [name])) = some .directory
      ↔ machine.HasDirectory name way := by
  simp only [status_eq_directory_iff, node_ofNames_eq_ok_iff hnames]
  constructor
  · rintro ⟨entries, hlength, hfound⟩
    exact ⟨⟨entries, hfound⟩, hlength⟩
  · rintro ⟨⟨entries, hfound⟩, hlength⟩
    exact ⟨entries, hlength, hfound⟩

end Machine

/-! ## Searching -/

namespace Host

variable {machine : Machine} {name : String}

theorem run_isDirectory_eq (machine : Machine) (path : String) :
    (isDirectory path : StateM Machine _).run machine
      = (decide (machine.status path = some .directory), machine) := by
  rw [isDirectory, run_bind_of_run (Machine.run_status machine path)]
  cases machine.status path with
  | none => rfl
  | some status => cases status <;> rfl

/-- A search for a directory of some name stops at the first directory that has it. -/
theorem run_firstWithDirectory (hname : IsName name) {ways : List (List String)}
    (hways : ∀ way ∈ ways, ∀ other ∈ way, IsName other) :
    (firstWithDirectory name (ways.map Path.ofNames) : StateM Machine _).run machine
      = ((ways.find? (machine.HasDirectory name)).map Path.ofNames, machine) := by
  induction ways with
  | nil => rfl
  | cons way ways ih =>
    obtain ⟨hway, hrest⟩ := List.forall_mem_cons.1 hways
    have hnames : ∀ other ∈ way ++ [name], IsName other := by
      intro other hother
      obtain hother | hother := List.mem_append.1 hother
      · exact hway other hother
      · exact List.mem_singleton.1 hother ▸ hname
    have hpath : Path.join (Path.ofNames way) name = Path.ofNames (way ++ [name]) :=
      Path.join_ofNames hway hname
    have hlook := run_isDirectory_eq machine (Path.ofNames (way ++ [name]))
    simp only [Machine.status_ofNames_eq_directory_iff hnames] at hlook
    rw [List.map_cons, firstWithDirectory, hpath, run_bind_of_run hlook]
    by_cases hhas : machine.HasDirectory name way
    · rw [if_pos (decide_eq_true hhas), List.find?_cons_of_pos (by simpa using hhas)]
      rfl
    · rw [if_neg (by simpa using hhas), ih hrest, List.find?_cons_of_neg (by simpa using hhas)]

/-- The working directory and those above it have proper names. -/
theorem isName_of_mem_ancestors (hhome : machine.IsHome) {way : List String}
    (hway : way ∈ Path.ancestors machine.workingDirectory) : ∀ other ∈ way, IsName other :=
  fun other hother => hhome.names other ((Path.mem_ancestors_iff.1 hway).subset hother)

end Host

end NeighborSearch
