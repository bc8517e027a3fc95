import NeighborSearch.Proofs.Host.Paths
import NeighborSearch.Proofs.Text.Split

/-!
# Relative and absolute paths

A relative path leads to where it leads from the directory that it is joined to, as long as the
joined text is not too long for a path.
-/

namespace NeighborSearch

/-! ## Names -/

/-- A name that a directory can hold. -/
structure IsName (name : String) : Prop where
  nonempty : name ≠ ""
  dot : name ≠ "."
  dots : name ≠ ".."
  slash : '/' ∉ name.toList
  nul : '\x00' ∉ name.toList
  length : name.utf8ByteSize ≤ longestName

instance (name : String) : Decidable (IsName name) :=
  decidable_of_iff (name ≠ "" ∧ name ≠ "." ∧ name ≠ ".." ∧ '/' ∉ name.toList
      ∧ '\x00' ∉ name.toList ∧ name.utf8ByteSize ≤ longestName)
    ⟨fun ⟨nonempty, dot, dots, slash, nul, length⟩ => ⟨nonempty, dot, dots, slash, nul, length⟩,
      fun h => ⟨h.nonempty, h.dot, h.dots, h.slash, h.nul, h.length⟩⟩

namespace Machine

section

variable {root : Node} {names : List String}

theorem checkName_of_isName {name : String} (h : IsName name) : checkName name = .ok () :=
  if_neg (Nat.not_lt.2 h.length)

/-- Names lead down to the directory at their end. -/
theorem foldlM_names (hnames : ∀ name ∈ names, IsName name) {before : List String}
    (h : root.IsDirectoryAt (before ++ names)) :
    names.foldlM (enter root) before = .ok (before ++ names) := by
  induction names generalizing before with
  | nil => rw [List.append_nil]; rfl
  | cons name names ih =>
    obtain ⟨hname, hnames⟩ := List.forall_mem_cons.1 hnames
    rw [List.append_cons] at h ⊢
    rw [List.foldlM_cons, enter_name hname.nonempty hname.dot hname.dots (checkName_of_isName hname)
      h.of_append]
    exact ih hnames h

/-- Pieces after the names of a directory lead where they lead from there. -/
theorem walk_append (hnames : ∀ name ∈ names, IsName name) (h : root.IsDirectoryAt names)
    {pieces : List String} (hpieces : pieces ≠ []) (slashed : Bool) :
    walk root [] (names ++ pieces) slashed = walk root names pieces slashed := by
  have hdown : names.foldlM (enter root) [] = .ok ([] ++ names) := foldlM_names hnames h
  rw [List.nil_append] at hdown
  rw [walk, List.dropLast_append_of_ne_nil hpieces, List.foldlM_append, hdown, ok_bind,
    List.getLast?_append_of_ne_nil _ hpieces]
  rfl

/-! ## Joined texts -/

theorem toList_ofNames (names : List String) :
    (Path.ofNames names).toList = '/' :: ['/'].intercalate (names.map String.toList) := by
  rw [Path.ofNames, String.toList_append, String.toList_intercalate]
  rfl

/-- Names hold no slashes. -/
theorem splitOn_names (hne : names ≠ []) (hnames : ∀ name ∈ names, IsName name) :
    Text.splitOn '/' (['/'].intercalate (names.map String.toList)) = names.map String.toList := by
  refine Text.splitOn_intercalate (by simpa using hne) fun piece hpiece => ?_
  obtain ⟨name, hname, rfl⟩ := List.mem_map.1 hpiece
  exact (hnames name hname).slash

/-- The path of a directory ends with a slash only at the root. -/
theorem getLast?_ofNames (hne : names ≠ []) (hnames : ∀ name ∈ names, IsName name) :
    (Path.ofNames names).toList.getLast? ≠ some '/' := by
  intro hlast
  have hsplit := splitOn_names hne hnames
  rw [toList_ofNames] at hlast
  generalize ['/'].intercalate (names.map String.toList) = text at hlast hsplit
  -- a slash at the end would make the last piece empty
  have hempty : [] ∈ names.map String.toList := by
    rw [← hsplit]
    rcases List.eq_nil_or_concat text with rfl | ⟨front, c, rfl⟩
    · exact List.mem_singleton_self []
    · rw [List.concat_eq_append, ← List.cons_append, List.getLast?_append,
        List.getLast?_singleton, Option.some_or] at hlast
      rw [List.concat_eq_append, Option.some.inj hlast, Text.splitOn_append]
      exact List.mem_append_right _ (List.mem_singleton_self [])
  obtain ⟨name, hname, htext⟩ := List.mem_map.1 hempty
  exact (hnames name hname).nonempty (String.toList_eq_nil_iff.1 htext)

theorem intercalate_append {c : Char} {pieces : List (List Char)} (hne : pieces ≠ []) :
    [c].intercalate pieces ++ [c] = pieces.flatMap (· ++ [c]) := by
  induction pieces with
  | nil => exact absurd rfl hne
  | cons piece pieces ih =>
    match pieces with
    | [] => rw [List.intercalate_singleton, List.flatMap_cons, List.flatMap_nil, List.append_nil]
    | next :: pieces =>
      rw [List.intercalate_cons_cons, List.flatMap_cons, ← ih (List.cons_ne_nil next pieces),
        List.append_assoc]

/-- A joined path is the names of the directory, a slash after each, and the relative path. -/
theorem toList_join (hnames : ∀ name ∈ names, IsName name) {path : String}
    (hrelative : Path.isAbsolute path = false) :
    (Path.join (Path.ofNames names) path).toList
      = '/' :: ((names.map String.toList).flatMap (· ++ ['/']) ++ path.toList) := by
  have hstart := toList_ofNames names
  rw [Path.join, if_neg (by rw [hrelative]; decide)]
  match names with
  | [] =>
    rw [if_pos (.inr rfl), String.toList_append, hstart]
    rfl
  | name :: names =>
    have hne := List.cons_ne_nil name names
    have hnonempty : Path.ofNames (name :: names) ≠ "" := by
      intro h
      rw [h] at hstart
      cases hstart
    rw [if_neg (not_or.2 ⟨hnonempty, getLast?_ofNames hne hnames⟩), String.toList_append,
      String.toList_append, hstart, ← intercalate_append (by simp)]
    simp

theorem splitOn_flatMap {pieces : List (List Char)} (h : ∀ piece ∈ pieces, '/' ∉ piece)
    (rest : List Char) :
    Text.splitOn '/' (pieces.flatMap (· ++ ['/']) ++ rest) = pieces ++ Text.splitOn '/' rest := by
  induction pieces with
  | nil => rfl
  | cons piece pieces ih =>
    obtain ⟨hpiece, hrest⟩ := List.forall_mem_cons.1 h
    rw [List.flatMap_cons, List.append_assoc, List.append_assoc, List.singleton_append,
      Text.splitOn_append, Text.splitOn_of_not_mem hpiece, ih hrest]
    rfl

/-- The pieces of a joined path are the names of the directory and those of the relative path. -/
theorem segments_join (hnames : ∀ name ∈ names, IsName name) {path : String}
    (hrelative : Path.isAbsolute path = false) :
    segments (Path.join (Path.ofNames names) path) = names ++ segments path := by
  have hslash : ∀ piece ∈ names.map String.toList, '/' ∉ piece := by
    intro piece hpiece
    obtain ⟨name, hname, rfl⟩ := List.mem_map.1 hpiece
    exact (hnames name hname).slash
  have hfilter : names.filter (· ≠ "") = names := by
    rw [List.filter_eq_self]
    exact fun name hname => decide_eq_true (hnames name hname).nonempty
  rw [segments, Path.pieces, toList_join hnames hrelative, Text.splitOn, if_pos rfl,
    splitOn_flatMap hslash, List.map_cons, List.map_append, List.map_map]
  have htexts : names.map (String.ofList ∘ String.toList) = names := by
    refine List.map_id'' (fun name => ?_) names
    exact String.ofList_toList
  rw [htexts, List.filter_cons_of_neg (by decide), List.filter_append, hfilter]
  rfl

/-- A relative path has a piece, unless it is empty. -/
theorem segments_ne_nil {path : String} (hrelative : Path.isAbsolute path = false)
    (hpath : path ≠ "") : segments path ≠ [] := by
  obtain ⟨c, t, htext⟩ :=
    List.exists_cons_of_ne_nil (fun h => hpath (String.toList_eq_nil_iff.1 h))
  have hc : c ≠ '/' := by
    rintro rfl
    rw [Path.isAbsolute, htext] at hrelative
    exact absurd hrelative (by simp)
  obtain ⟨piece, pieces, hsplit⟩ : ∃ piece pieces,
      Text.splitOn '/' (c :: t) = (c :: piece) :: pieces := by
    rw [Text.splitOn, if_neg hc]
    cases Text.splitOn '/' t with
    | nil => exact ⟨[], [], rfl⟩
    | cons piece pieces => exact ⟨piece, pieces, rfl⟩
  have hnonempty : decide (String.ofList (c :: piece) ≠ "") = true := by
    refine decide_eq_true fun h => ?_
    have hchars := congrArg String.toList h
    rw [String.toList_ofList] at hchars
    cases hchars
  rw [segments, Path.pieces, htext, hsplit, List.map_cons, List.filter_cons, if_pos hnonempty]
  exact List.cons_ne_nil _ _

theorem nul_notMem_join (hnames : ∀ name ∈ names, IsName name) {path : String}
    (hrelative : Path.isAbsolute path = false) (hpath : '\x00' ∉ path.toList) :
    '\x00' ∉ (Path.join (Path.ofNames names) path).toList := by
  rw [toList_join hnames hrelative, List.mem_cons, List.mem_append, List.mem_flatMap]
  rintro (h | ⟨piece, hpiece, h⟩ | h)
  · exact absurd h (by decide)
  · obtain ⟨name, hname, rfl⟩ := List.mem_map.1 hpiece
    obtain h | h := List.mem_append.1 h
    · exact (hnames name hname).nul h
    · exact absurd (List.mem_singleton.1 h) (by decide)
  · exact hpath h

/-- A path that leads somewhere from a directory leads there when it is joined to the path of the
directory, unless the joined text is too long. -/
theorem locate_join {root : Node} {start : List String} {path : String} {place : Location}
    (hnames : ∀ name ∈ names, IsName name) (hdirectory : root.IsDirectoryAt names)
    (hrelative : Path.isAbsolute path = false)
    (hlength : (Path.join (Path.ofNames names) path).utf8ByteSize ≤ longestPath)
    (h : locate root names path = .ok place) :
    locate root start (Path.join (Path.ofNames names) path) = .ok place := by
  obtain ⟨hpath, hwalk⟩ := locate_eq_ok_iff.1 h
  have htext := toList_join hnames hrelative
  have hchars : path.toList ≠ [] := fun h => hpath.nonempty (String.toList_eq_nil_iff.1 h)
  have habsolute : Path.isAbsolute (Path.join (Path.ofNames names) path) = true := by
    rw [Path.isAbsolute, htext]
    rfl
  have hslashed : isSlashed (Path.join (Path.ofNames names) path) = isSlashed path := by
    rw [isSlashed, isSlashed, htext, ← List.cons_append, List.getLast?_append_of_ne_nil _ hchars]
  have hpieces := segments_ne_nil hrelative hpath.nonempty
  rw [locate_eq_ok_iff]
  refine ⟨⟨nul_notMem_join hnames hrelative hpath.nul, hlength, ?_⟩, ?_⟩
  · intro hempty
    rw [hempty] at htext
    cases htext
  · rw [origin, hrelative, if_neg Bool.false_ne_true] at hwalk
    rw [origin, if_pos habsolute, segments_join hnames hrelative, hslashed,
      walk_append hnames hdirectory hpieces, hwalk]

end

end Machine

end NeighborSearch
