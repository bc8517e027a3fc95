import Mathlib.Data.String.Basic
import NeighborSearch.Proofs.Host.Join
import NeighborSearch.Proofs.Text.Digits

/-!
# Plain paths

A plain path is written as names with a slash between each two of them, and with a slash before
them if it is absolute. Its pieces are its names, and the path above it is the plain path without
the last of them.
-/

namespace NeighborSearch.Path

/-- The path of names from the root or from the working directory. -/
def plain (absolute : Bool) (names : List String) : String :=
  (if absolute then "/" else "") ++ "/".intercalate names

/-- The slash before the names of an absolute path. -/
def stem (absolute : Bool) : List Char :=
  if absolute then ['/'] else []

/-- Names with a slash after each of them. -/
def slashedNames (names : List String) : List Char :=
  (names.map String.toList).flatMap (· ++ ['/'])

/-! ## Texts -/

section

variable {absolute : Bool} {names : List String} {name : String}

theorem toList_plain (absolute : Bool) (names : List String) :
    (plain absolute names).toList
      = stem absolute ++ ['/'].intercalate (names.map String.toList) := by
  rw [plain, String.toList_append, String.toList_intercalate]
  cases absolute <;> rfl

theorem slashedNames_concat (names : List String) (name : String) :
    slashedNames (names ++ [name]) = slashedNames names ++ (name.toList ++ ['/']) := by
  rw [slashedNames, List.map_append, List.flatMap_append]
  exact congrArg _ (List.append_nil _)

theorem toList_plain_nil (absolute : Bool) : (plain absolute []).toList = stem absolute := by
  rw [toList_plain]
  exact List.append_nil _

theorem toList_plain_concat (absolute : Bool) (names : List String) (name : String) :
    (plain absolute (names ++ [name])).toList
      = stem absolute ++ (slashedNames names ++ name.toList) := by
  have hslash : ['/'].intercalate ((names ++ [name]).map String.toList) ++ ['/']
      = slashedNames names ++ name.toList ++ ['/'] := by
    rw [Machine.intercalate_append (by simp), ← slashedNames, slashedNames_concat,
      List.append_assoc]
  rw [toList_plain, List.append_cancel_right hslash]

theorem toList_ne_nil (h : IsName name) : name.toList ≠ [] :=
  fun hnil => h.nonempty (String.toList_eq_nil_iff.1 hnil)

theorem isAbsolute_plain (hnames : ∀ name ∈ names, IsName name) :
    isAbsolute (plain absolute names) = absolute := by
  rw [isAbsolute, toList_plain]
  cases absolute with
  | true => rfl
  | false =>
    cases names with
    | nil => rfl
    | cons name names =>
      have hname := hnames name List.mem_cons_self
      obtain ⟨c, t, htext⟩ := List.exists_cons_of_ne_nil (toList_ne_nil hname)
      have hc : c ≠ '/' := by
        rintro rfl
        exact hname.slash (htext ▸ List.mem_cons_self)
      have hhead : (['/'].intercalate ((name :: names).map String.toList)).head? = some c := by
        rw [List.map_cons, htext]
        cases names.map String.toList <;> simp
      rw [stem, if_neg Bool.false_ne_true, List.nil_append, hhead]
      simpa using hc

theorem isSlashed_plain (hname : IsName name) :
    Machine.isSlashed (plain absolute (names ++ [name])) = false := by
  obtain ⟨front, c, htext⟩ :=
    (List.eq_nil_or_concat name.toList).resolve_left (toList_ne_nil hname)
  rw [List.concat_eq_append] at htext
  have hc : c ≠ '/' := by
    rintro rfl
    exact hname.slash (htext ▸ List.mem_concat_self)
  rw [Machine.isSlashed, toList_plain_concat, htext, ← List.append_assoc, ← List.append_assoc,
    List.getLast?_concat]
  simpa using hc

theorem nul_notMem_plain (hnames : ∀ name ∈ names, IsName name) :
    '\x00' ∉ (plain absolute names).toList := by
  have hstem : '\x00' ∉ stem absolute := by cases absolute <;> decide
  rcases List.eq_nil_or_concat names with rfl | ⟨front, name, rfl⟩
  · rwa [toList_plain_nil]
  · rw [List.concat_eq_append] at hnames ⊢
    rw [toList_plain_concat, slashedNames, List.mem_append, List.mem_append, List.mem_flatMap]
    rintro (h | ⟨piece, hpiece, h⟩ | h)
    · exact hstem h
    · obtain ⟨other, hother, rfl⟩ := List.mem_map.1 hpiece
      obtain h | h := List.mem_append.1 h
      · exact (hnames other (List.mem_append_left _ hother)).nul h
      · exact absurd (List.mem_singleton.1 h) (by decide)
    · exact (hnames name List.mem_concat_self).nul h

theorem utf8Len_toList (s : String) : String.utf8Len s.toList = s.utf8ByteSize := by
  rw [← String.utf8ByteSize_ofList, String.ofList_toList]

/-- A path has the bytes of its names and of the slashes between and before them. -/
theorem utf8ByteSize_plain_concat (absolute : Bool) (names : List String) (name : String) :
    (plain absolute (names ++ [name])).utf8ByteSize
      = String.utf8Len (stem absolute)
        + (String.utf8Len (slashedNames names) + name.utf8ByteSize) := by
  rw [← utf8Len_toList, toList_plain_concat, String.utf8Len_append, String.utf8Len_append,
    utf8Len_toList]

theorem utf8Len_slashedNames_concat (names : List String) (name : String) :
    String.utf8Len (slashedNames (names ++ [name]))
      = String.utf8Len (slashedNames names) + (name.utf8ByteSize + 1) := by
  rw [slashedNames_concat, String.utf8Len_append, String.utf8Len_append, utf8Len_toList]
  rfl

/-- A path gets longer with every name. -/
theorem utf8ByteSize_plain_le (absolute : Bool) (names : List String) (name : String) :
    (plain absolute names).utf8ByteSize ≤ (plain absolute (names ++ [name])).utf8ByteSize := by
  rw [utf8ByteSize_plain_concat]
  rcases List.eq_nil_or_concat names with rfl | ⟨front, last, rfl⟩
  · rw [← utf8Len_toList, toList_plain_nil]
    exact Nat.le_add_right _ _
  · rw [List.concat_eq_append, utf8ByteSize_plain_concat, utf8Len_slashedNames_concat]
    omega

theorem length_le_length_plain (absolute : Bool) {names : List String}
    (hnames : ∀ name ∈ names, IsName name) : names.length ≤ (plain absolute names).length := by
  have hslashes (names : List String) : names.length ≤ (slashedNames names).length := by
    induction names with
    | nil => exact Nat.le_refl 0
    | cons name names ih =>
      rw [slashedNames, List.map_cons, List.flatMap_cons, ← slashedNames, List.length_append,
        List.length_append, List.length_cons, List.length_singleton]
      omega
  rcases List.eq_nil_or_concat names with rfl | ⟨front, last, rfl⟩
  · exact Nat.zero_le _
  · rw [List.concat_eq_append] at hnames ⊢
    have hlast := List.length_pos_iff.2 (toList_ne_nil (hnames last List.mem_concat_self))
    have hfront := hslashes front
    rw [← String.length_toList, toList_plain_concat, List.length_append, List.length_append,
      List.length_append, List.length_singleton]
    omega

/-! ## Pieces -/

theorem pieces_plain (hnames : ∀ name ∈ names, IsName name) (hname : IsName name) :
    pieces (plain absolute (names ++ [name]))
      = (if absolute then [""] else []) ++ (names ++ [name]) := by
  have hslash : ∀ piece ∈ names.map String.toList, '/' ∉ piece := by
    intro piece hpiece
    obtain ⟨other, hother, rfl⟩ := List.mem_map.1 hpiece
    exact (hnames other hother).slash
  have hsplit : Text.splitOn '/' (slashedNames names ++ name.toList)
      = (names ++ [name]).map String.toList := by
    rw [slashedNames, Machine.splitOn_flatMap hslash, Text.splitOn_of_not_mem hname.slash,
      List.map_append]
    rfl
  have htexts (names : List String) : (names.map String.toList).map String.ofList = names := by
    rw [List.map_map]
    exact List.map_id'' (fun _ => String.ofList_toList) names
  rw [pieces, toList_plain_concat, stem]
  cases absolute with
  | false => exact (congrArg _ hsplit).trans (htexts _)
  | true =>
    rw [if_pos rfl, List.singleton_append, Text.splitOn, if_pos rfl, List.map_cons, hsplit, htexts]
    rfl

/-- The names of a plain path are its pieces. -/
theorem segments_plain (hnames : ∀ name ∈ names, IsName name) (hname : IsName name) :
    Machine.segments (plain absolute (names ++ [name])) = names ++ [name] := by
  have hall : ∀ other ∈ names ++ [name], decide (other ≠ "") = true := by
    intro other hother
    obtain h | h := List.mem_append.1 hother
    · exact decide_eq_true (hnames other h).nonempty
    · exact decide_eq_true (List.mem_singleton.1 h ▸ hname.nonempty)
  rw [Machine.segments, pieces_plain hnames hname, List.filter_append, List.filter_eq_self.2 hall]
  cases absolute <;> rfl

/-! ## The path above -/

/-- Text that is neither a dot nor has slashes is kept. -/
theorem dropSilent_append {text : List Char} (hne : text ≠ []) (hslash : '/' ∉ text)
    (hdot : text ≠ ['.']) (rest : List Char) : dropSilent (text ++ rest) = text ++ rest := by
  obtain ⟨c, t, rfl⟩ := List.exists_cons_of_ne_nil hne
  rw [List.cons_append, dropSilent]
  · rintro u h
    exact hslash (List.mem_cons.2 (.inl (List.cons.inj h).1.symm))
  · intro h
    obtain ⟨rfl, htail⟩ := List.cons.inj h
    exact hdot (congrArg _ (List.append_eq_nil_iff.1 htail).1)
  · intro u h
    obtain ⟨rfl, htail⟩ := List.cons.inj h
    cases t with
    | nil => exact hdot rfl
    | cons d t =>
      rw [(List.cons.inj htail).1] at hslash
      exact hslash (List.mem_cons_of_mem _ List.mem_cons_self)

theorem dropSilent_reverse (hname : IsName name) (rest : List Char) :
    dropSilent (name.toList.reverse ++ rest) = name.toList.reverse ++ rest := by
  refine dropSilent_append ?_ ?_ ?_ rest
  · rw [ne_eq, List.reverse_eq_nil_iff]
    exact toList_ne_nil hname
  · rw [List.mem_reverse]
    exact hname.slash
  · intro h
    rw [List.reverse_eq_iff] at h
    exact hname.dot (String.toList_injective (h.trans rfl))

theorem withoutLast_plain (hnames : ∀ name ∈ names, IsName name) (hname : IsName name) :
    withoutLast (plain absolute (names ++ [name])) = plain absolute names := by
  have hreverse : (plain absolute (names ++ [name])).toList.reverse
      = name.toList.reverse ++ (stem absolute ++ slashedNames names).reverse := by
    rw [toList_plain_concat, ← List.append_assoc, List.reverse_append]
  have hplain : ∀ c ∈ name.toList.reverse, decide (c ≠ '/') = true := by
    intro c hc
    refine decide_eq_true ?_
    rintro rfl
    exact hname.slash (List.mem_reverse.1 hc)
  rcases List.eq_nil_or_concat names with rfl | ⟨front, last, rfl⟩
  · -- nothing but the slash of an absolute path stands before the only name
    have hstart : Text.startsWith (fun c => decide (c ≠ '/'))
        (stem absolute ++ slashedNames []).reverse = false := by
      cases absolute <;> rfl
    rw [withoutLast, hreverse, dropSilent_reverse hname, Text.dropWhile_run hplain hstart]
    cases absolute <;> rfl
  · rw [List.concat_eq_append] at hnames hreverse ⊢
    have hlast := hnames last List.mem_concat_self
    have hfront : (stem absolute ++ slashedNames (front ++ [last])).reverse
        = '/' :: (last.toList.reverse ++ (stem absolute ++ slashedNames front).reverse) := by
      rw [slashedNames_concat]
      simp only [List.reverse_append, List.reverse_cons, List.reverse_nil, List.nil_append,
        List.cons_append, List.append_assoc]
    -- the slash between the last two names goes, and the last but one stays
    have hkept : dropSilent
        ('/' :: (last.toList.reverse ++ (stem absolute ++ slashedNames front).reverse))
        = (stem absolute ++ slashedNames front ++ last.toList).reverse := by
      rw [dropSilent, dropSilent_reverse hlast, ← List.reverse_append]
    have hnonempty : (stem absolute ++ slashedNames front ++ last.toList).reverse ≠ [] := by
      rw [ne_eq, List.reverse_eq_nil_iff]
      exact List.append_ne_nil_of_right_ne_nil _ (toList_ne_nil hlast)
    obtain ⟨c, t, htext⟩ := List.exists_cons_of_ne_nil hnonempty
    rw [hfront] at hreverse
    rw [withoutLast, hreverse, dropSilent_reverse hname, Text.dropWhile_run hplain rfl, hkept,
      htext]
    show String.ofList (c :: t).reverse = _
    rw [← htext, List.reverse_reverse]
    apply String.toList_injective
    rw [String.toList_ofList, toList_plain_concat, List.append_assoc]

/-- The path above a plain path leads to the directory of its last name. -/
theorem parent?_plain (hnames : ∀ name ∈ names, IsName name) (hname : IsName name) :
    parent? (plain absolute (names ++ [name])) = some (plain absolute names) := by
  have hpart : partOfPiece name = some (.name name) := by
    rw [partOfPiece, if_neg (not_or.2 ⟨hname.nonempty, hname.dot⟩), if_neg hname.dots]
  have hparts : ∃ before, parts (plain absolute (names ++ [name])) = before ++ [.name name] := by
    have hnamed : ∃ before, (pieces (plain absolute (names ++ [name]))).filterMap partOfPiece
        = before ++ [.name name] := by
      rw [pieces_plain hnames hname, ← List.append_assoc, List.filterMap_append,
        List.filterMap_cons_some hpart, List.filterMap_nil]
      exact ⟨_, rfl⟩
    obtain ⟨before, hbefore⟩ := hnamed
    rw [parts, hbefore]
    split
    · exact ⟨.root :: before, rfl⟩
    · split
      · exact ⟨.current :: before, rfl⟩
      · exact ⟨before, rfl⟩
  obtain ⟨before, hbefore⟩ := hparts
  rw [parent?, hbefore, List.getLast?_concat]
  dsimp only
  rw [withoutLast_plain hnames hname]

end

end NeighborSearch.Path
