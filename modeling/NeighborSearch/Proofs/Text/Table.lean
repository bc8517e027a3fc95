import Mathlib
import NeighborSearch.Proofs.Text.Split
import NeighborSearch.Text.Table
import NeighborSearch.Text.Width.Lemmas

/-!
# The lines of tables

The width of a character depends on what follows it, so texts do not just add up. In a table they
do: whatever stands in a cell is followed by a blank. This file gives

1. texts that form nothing with what precedes them, which add up;
2. cells, which have the width of their column, and lines of cells between bars;
3. horizontal lines, which are as wide as the lines of cells;
4. the columns of a table, which are wide enough for their cells, so that all lines of a table have
   the same width;
5. the lines of a text of a table, which come apart again at the newlines.
-/

namespace NeighborSearch.Text

/-! ## Texts that stand alone -/

section StandsAlone

variable {s t : List Char} {c : Char}

/-- A text forms nothing with what precedes it. -/
def StandsAlone (s : List Char) : Prop :=
  (measure s).2 = {}

theorem standsAlone_nil : StandsAlone [] := rfl

theorem standsAlone_blank_cons (s : List Char) : StandsAlone (' ' :: s) :=
  measure_blank_cons s

theorem StandsAlone.append (hs : StandsAlone s) (ht : StandsAlone t) : StandsAlone (s ++ t) := by
  rw [StandsAlone, measure_append ht]
  exact hs

/-- A text adds its columns to one that stands alone. -/
theorem width_append (s : List Char) (h : StandsAlone t) : width (s ++ t) = width s + width t := by
  have hsum : (width (s ++ t) : Int) = width s + width t := by
    rw [natCast_width, natCast_width, natCast_width, measure_append h]
  omega

/-- A character of one column that forms nothing with what precedes it, and nothing with a text that
stands alone. It does not end a line. -/
def IsBar (c : Char) : Prop :=
  place c {} = (1, {}) ∧ c ≠ '\n'

instance (c : Char) : Decidable (IsBar c) :=
  inferInstanceAs (Decidable (_ ∧ _))

theorem IsBar.measure_cons (hc : IsBar c) (h : StandsAlone s) :
    measure (c :: s) = (1 + (measure s).1, {}) := by
  have hplace : place c (measure s).2 = (1, {}) := by
    rw [h]
    exact hc.1
  rw [measure]
  simp only [hplace]

theorem IsBar.standsAlone_cons (hc : IsBar c) (h : StandsAlone s) : StandsAlone (c :: s) := by
  rw [StandsAlone, hc.measure_cons h]

theorem IsBar.width_cons (hc : IsBar c) (h : StandsAlone s) : width (c :: s) = 1 + width s := by
  have hsum : (width (c :: s) : Int) = 1 + width s := by
    rw [natCast_width, natCast_width, hc.measure_cons h]
  omega

/-- A blank adds its column to any text. -/
theorem width_blank_cons (s : List Char) : width (' ' :: s) = 1 + width s := by
  have hmeasure : measure (' ' :: s) = (1 + (measure s).1, {}) := by
    rw [measure]
    simp only [place_blank]
  have hsum : (width (' ' :: s) : Int) = 1 + width s := by
    rw [natCast_width, natCast_width, hmeasure]
  omega

theorem width_blanks_append (n : Nat) (s : List Char) : width (blanks n ++ s) = n + width s := by
  induction n with
  | zero => exact (Nat.zero_add _).symm
  | succ n ih =>
    rw [blanks, List.replicate_succ, List.cons_append, width_blank_cons]
    rw [blanks] at ih
    omega

/-- A bar that is repeated makes a text that stands alone. -/
theorem IsBar.standsAlone_replicate (hc : IsBar c) (n : Nat) :
    StandsAlone (List.replicate n c) := by
  induction n with
  | zero => exact standsAlone_nil
  | succ n ih => exact hc.standsAlone_cons ih

theorem IsBar.width_replicate (hc : IsBar c) (n : Nat) : width (List.replicate n c) = n := by
  induction n with
  | zero => rfl
  | succ n ih =>
    rw [List.replicate_succ, hc.width_cons (hc.standsAlone_replicate n), ih, Nat.add_comm]

theorem isBar_blank : IsBar ' ' :=
  ⟨place_blank {}, by decide⟩

theorem standsAlone_blanks (n : Nat) : StandsAlone (blanks n) :=
  isBar_blank.standsAlone_replicate n

theorem width_blanks (n : Nat) : width (blanks n) = n :=
  isBar_blank.width_replicate n

/-- The bar at both ends of a line of cells. -/
theorem isBar_edge : IsBar '│' := by decide +kernel

/-- The bar between two cells. -/
theorem isBar_divider : IsBar '┆' := by decide +kernel

end StandsAlone

/-! ## Lines of cells -/

/-- A text of a column: it is one line that stands alone, and it takes the width of the column and a
blank on each side. -/
structure Fills (text : List Char) (width : Nat) : Prop where
  standsAlone : StandsAlone text
  newline : '\n' ∉ text
  width_eq : Text.width text = width + 2

/-- A line of a table whose columns have these widths. -/
structure IsLine (widths : List Nat) (line : List Char) : Prop where
  newline : '\n' ∉ line
  width_eq : width line = widths.sum + 3 * widths.length + 1

section Cells

variable {text : List Char} {texts : List (List Char)} {w : Nat} {widths : List Nat} {cell : Cell}

/-- A bar that is repeated fills a column. -/
theorem IsBar.fills_replicate {fill : Char} (hfill : IsBar fill) (w : Nat) :
    Fills (List.replicate (w + 2) fill) w where
  standsAlone := hfill.standsAlone_replicate _
  newline := fun h => hfill.2 (List.eq_of_mem_replicate h).symm
  width_eq := hfill.width_replicate _

theorem newline_notMem_blanks (n : Nat) : '\n' ∉ blanks n :=
  fun h => absurd (List.eq_of_mem_replicate h) (by decide)

theorem fills_padded (alignment : Alignment) (hline : '\n' ∉ text) (h : width text ≤ w) :
    Fills (padded w alignment text) w := by
  have hend : StandsAlone [' '] := standsAlone_blank_cons []
  have hlast : width [' '] = 1 := by decide
  have hfill := newline_notMem_blanks (w - width text)
  cases alignment with
  | left =>
    refine ⟨standsAlone_blank_cons _, by simp [padded, hline, hfill], ?_⟩
    show width (' ' :: (text ++ blanks (w - width text) ++ [' '])) = w + 2
    rw [width_blank_cons, width_append _ hend, width_append _ (standsAlone_blanks _), hlast,
      width_blanks]
    omega
  | right =>
    refine ⟨standsAlone_blank_cons _, by simp [padded, hline, hfill], ?_⟩
    show width (' ' :: (blanks (w - width text) ++ text ++ [' '])) = w + 2
    rw [width_blank_cons, width_append _ hend, width_blanks_append, hlast]
    omega

theorem le_foldl_max {n start : Nat} {ns : List Nat} (h : n ∈ ns) : n ≤ ns.foldl max start := by
  rw [List.foldl_max_eq_max (List.ne_nil_of_mem h)]
  exact Nat.le_trans (List.le_max_of_mem h) (Nat.le_max_right _ _)

theorem foldl_max_le {n start : Nat} {ns : List Nat} (hstart : start ≤ n)
    (h : ∀ m ∈ ns, m ≤ n) : ns.foldl max start ≤ n := by
  induction ns generalizing start with
  | nil => exact hstart
  | cons m ns ih =>
    obtain ⟨hm, hns⟩ := List.forall_mem_cons.1 h
    exact ih (Nat.max_le.2 ⟨hstart, hm⟩) hns

theorem width_le_of_mem_lines (h : text ∈ cell.lines) : width text ≤ cell.width :=
  le_foldl_max (List.mem_map_of_mem h)

/-- What a cell shows on a line: nothing below its last line. -/
def Cell.textAt (cell : Cell) (i : Nat) : List Char :=
  cell.lines[i]?.getD []

theorem Cell.textAt_of_lt {i : Nat} (h : i < cell.lines.length) :
    cell.textAt i = cell.lines[i] := by
  rw [textAt, List.getElem?_eq_getElem h, Option.getD_some]

/-- A text that is shown on the first line only. -/
def onFirstLine (text : String) (i : Nat) : List Char :=
  if i = 0 then text.toList else []

theorem Cell.textAt_of_singleLine (h : '\n' ∉ cell.text.toList) (i : Nat) :
    cell.textAt i = onFirstLine cell.text i := by
  rw [textAt, lines, splitOn_of_not_mem h]
  cases i <;> rfl

theorem Cell.width_textAt_le (cell : Cell) (i : Nat) :
    Text.width (cell.textAt i) ≤ cell.width := by
  unfold textAt
  cases h : cell.lines[i]? with
  | none => exact Nat.zero_le _
  | some text => exact width_le_of_mem_lines (List.mem_of_getElem? h)

theorem Cell.line_of_left (h : cell.alignment = .left) (w i : Nat) :
    cell.line w i
      = ' ' :: (cell.textAt i ++ blanks (w - Text.width (cell.textAt i))) ++ [' '] := by
  unfold line textAt
  cases cell.lines[i]? with
  | none =>
    -- a blank column is a text of no width between its two outer blanks
    exact List.replicate_succ'
  | some text =>
    rw [h]
    rfl

theorem Cell.line_of_right (h : cell.alignment = .right) (w i : Nat) :
    cell.line w i
      = ' ' :: (blanks (w - Text.width (cell.textAt i)) ++ cell.textAt i) ++ [' '] := by
  unfold line textAt
  cases cell.lines[i]? with
  | none =>
    rw [Option.getD_none, List.append_nil]
    exact List.replicate_succ'
  | some text =>
    rw [h]
    rfl

/-- Every line of a cell fills a column that is wide enough. -/
theorem fills_line (h : cell.width ≤ w) (i : Nat) : Fills (cell.line w i) w := by
  unfold Cell.line
  split
  case h_1 text htext =>
    have hmem := List.mem_of_getElem? htext
    exact fills_padded _ (separator_notMem_of_mem_splitOn hmem)
      (Nat.le_trans (width_le_of_mem_lines hmem) h)
  case h_2 => exact isBar_blank.fills_replicate w

/-! ## Texts between bars -/

variable {left cross right : Char}

/-- What follows the left end of a line stands alone. -/
theorem isLine_tail (hcross : IsBar cross) (hright : IsBar right) (hne : widths ≠ [])
    (h : List.Forall₂ Fills texts widths) :
    StandsAlone ([cross].intercalate texts ++ [right])
      ∧ '\n' ∉ [cross].intercalate texts ++ [right]
      ∧ width ([cross].intercalate texts ++ [right]) = widths.sum + 3 * widths.length := by
  induction h with
  | nil => exact absurd rfl hne
  | @cons text w texts widths htext hrest ih =>
    cases hrest with
    | nil =>
      have hend : StandsAlone [right] := hright.standsAlone_cons standsAlone_nil
      have hone : width [right] = 1 := hright.width_cons standsAlone_nil
      rw [List.intercalate_singleton]
      refine ⟨htext.standsAlone.append hend, ?_, ?_⟩
      · simp [htext.newline, hright.2.symm]
      · rw [width_append _ hend, htext.width_eq, hone]
        simp
    | @cons next w' texts widths hnext hrest =>
      -- the induction is on the cells from the right, since a bar is counted by what follows it
      obtain ⟨halone, hline, hwidth⟩ := ih (List.cons_ne_nil _ _)
      have hbar := hcross.standsAlone_cons halone
      have heq : [cross].intercalate (text :: next :: texts) ++ [right]
          = text ++ cross :: ([cross].intercalate (next :: texts) ++ [right]) := by
        rw [List.intercalate_cons_cons]
        simp
      rw [heq]
      refine ⟨htext.standsAlone.append hbar, ?_, ?_⟩
      · rw [List.mem_append, List.mem_cons, not_or, not_or]
        exact ⟨htext.newline, hcross.2.symm, hline⟩
      · rw [width_append _ hbar, htext.width_eq, hcross.width_cons halone, hwidth]
        simp only [List.sum_cons, List.length_cons]
        omega

theorem isLine_between (hleft : IsBar left) (hcross : IsBar cross) (hright : IsBar right)
    (hne : widths ≠ []) (h : List.Forall₂ Fills texts widths) :
    IsLine widths (left :: [cross].intercalate texts ++ [right]) := by
  obtain ⟨halone, hline, hwidth⟩ := isLine_tail hcross hright hne h
  rw [List.cons_append]
  refine ⟨?_, ?_⟩
  · rw [List.mem_cons, not_or]
    exact ⟨hleft.2.symm, hline⟩
  · rw [hleft.width_cons halone, hwidth, Nat.add_comm]

theorem isLine_joinCells (hne : widths ≠ []) (h : List.Forall₂ Fills texts widths) :
    IsLine widths (joinCells texts) :=
  isLine_between isBar_edge isBar_divider isBar_edge hne h

/-- The characters of a horizontal line are bars. -/
structure Rule.IsDrawn (rule : Rule) : Prop where
  left : IsBar rule.left
  fill : IsBar rule.fill
  cross : IsBar rule.cross
  right : IsBar rule.right

theorem Rule.isLine_draw {rule : Rule} (h : rule.IsDrawn) (hne : widths ≠ []) :
    IsLine widths (rule.draw widths) := by
  refine isLine_between h.left h.cross h.right hne ?_
  rw [List.forall₂_map_left_iff, List.forall₂_same]
  exact fun w _ => h.fill.fills_replicate w

theorem Rule.isDrawn_top : top.IsDrawn := by
  constructor <;> decide +kernel

theorem Rule.isDrawn_underHeader : underHeader.IsDrawn := by
  constructor <;> decide +kernel

theorem Rule.isDrawn_between : between.IsDrawn := by
  constructor <;> decide +kernel

theorem Rule.isDrawn_bottom : bottom.IsDrawn := by
  constructor <;> decide +kernel

/-- The lines of a row whose cells fit into their columns. -/
theorem isLine_of_mem_drawRow {row : List Cell} {line : List Char} (hne : widths ≠ [])
    (h : List.Forall₂ (fun cell w => cell.width ≤ w) row widths)
    (hline : line ∈ drawRow widths row) :
    IsLine widths line := by
  obtain ⟨i, -, rfl⟩ := List.mem_map.1 hline
  refine isLine_joinCells hne ?_
  -- the induction may pass through no columns
  clear hne hline
  induction h with
  | nil => exact .nil
  | cons hcell _ ih => exact .cons (fills_line hcell i) ih

end Cells

/-! ## Tables -/

namespace Table

variable {table : Table} {row : List Cell} {line : List Char}

theorem length_widths (table : Table) : table.widths.length = table.columns := by
  rw [widths, List.length_map, List.length_range]

theorem length_le_columns (h : row ∈ table.allRows) : row.length ≤ table.columns :=
  le_foldl_max (List.mem_map_of_mem h)

/-- A table whose rows have the same number of cells has as many columns. -/
theorem columns_eq {n : Nat} (hlength : ∀ row ∈ table.allRows, row.length = n)
    (h : row ∈ table.allRows) : table.columns = n := by
  refine Nat.le_antisymm (foldl_max_le (Nat.zero_le n) fun m hm => ?_) ?_
  · obtain ⟨row, hrow, rfl⟩ := List.mem_map.1 hm
    exact Nat.le_of_eq (hlength row hrow)
  · rw [← hlength row h]
    exact length_le_columns h

theorem width_le_columnWidth (h : row ∈ table.allRows) {i : Nat} (hi : i < row.length) :
    row[i].width ≤ table.columnWidth i := by
  refine le_foldl_max (List.mem_filterMap.2 ⟨row, h, ?_⟩)
  rw [List.getElem?_eq_getElem hi, Option.map_some]

/-- The cells of a row, and those it is filled up with, fit into their columns. -/
theorem fits_fillRow (h : row ∈ table.allRows) :
    List.Forall₂ (fun cell w => cell.width ≤ w) (fillRow row table.widths.length) table.widths := by
  have hlength := length_le_columns h
  rw [length_widths, List.forall₂_iff_get]
  refine ⟨?_, fun i hi hi' => ?_⟩
  · rw [length_widths, fillRow, List.length_append, List.length_replicate]
    omega
  · have hempty : Cell.width ⟨"", .left⟩ = 0 := by decide
    simp only [List.get_eq_getElem, fillRow, widths, List.getElem_map, List.getElem_range,
      List.getElem_append]
    split
    case isTrue hrow => exact width_le_columnWidth h hrow
    case isFalse =>
      -- beyond the end of the row
      rw [List.getElem_replicate, hempty]
      exact Nat.zero_le _

theorem isLine_of_mem_rowLines (hne : table.widths ≠ []) (h : row ∈ table.allRows)
    (hline : line ∈ rowLines table.widths row) : IsLine table.widths line :=
  isLine_of_mem_drawRow hne (fits_fillRow h) hline

theorem mem_intercalate {α : Type} {x : α} {separator : List α} {blocks : List (List α)}
    (h : x ∈ separator.intercalate blocks) : x ∈ separator ∨ ∃ block ∈ blocks, x ∈ block := by
  induction blocks with
  | nil => cases h
  | cons block rest ih =>
    cases rest with
    | nil =>
      rw [List.intercalate_singleton] at h
      exact .inr ⟨block, List.mem_singleton_self _, h⟩
    | cons next rest =>
      rw [List.intercalate_cons_cons, List.append_assoc, List.mem_append, List.mem_append] at h
      rcases h with h | h | h
      · exact .inr ⟨block, List.mem_cons_self, h⟩
      · exact .inl h
      · rcases ih h with h | ⟨other, hother, h⟩
        · exact .inl h
        · exact .inr ⟨other, List.mem_cons_of_mem _ hother, h⟩

/-- All lines of a table have the width of its columns, of the blanks beside them and of the
bars. -/
theorem isLine_of_mem_lines (hne : table.widths ≠ []) (h : line ∈ table.lines) :
    IsLine table.widths line := by
  simp only [lines, List.cons_append, List.mem_cons, List.mem_append, List.not_mem_nil,
    or_false] at h
  -- the line above, the header, the rows and the line below
  rcases h with rfl | (hheader | hbody) | rfl
  · exact Rule.isLine_draw Rule.isDrawn_top hne
  · unfold headerLines at hheader
    split at hheader
    case h_1 => cases hheader
    case h_2 header hsome =>
      have hmem : header ∈ table.allRows := by simp [allRows, hsome]
      rcases List.mem_append.1 hheader with hrow | hrule
      · exact isLine_of_mem_rowLines hne hmem hrow
      · rw [List.mem_singleton.1 hrule]
        exact Rule.isLine_draw Rule.isDrawn_underHeader hne
  · rcases mem_intercalate hbody with hrule | ⟨block, hblock, hline⟩
    · rw [List.mem_singleton.1 hrule]
      exact Rule.isLine_draw Rule.isDrawn_between hne
    · obtain ⟨row, hrow, rfl⟩ := List.mem_map.1 hblock
      exact isLine_of_mem_rowLines hne (List.mem_append_right _ hrow) hline
  · exact Rule.isLine_draw Rule.isDrawn_bottom hne

/-- The text of a table comes apart into its lines. -/
theorem splitOn_toText (hne : table.widths ≠ []) :
    splitOn '\n' table.toText.toList = table.lines := by
  rw [toText, String.toList_ofList]
  exact splitOn_intercalate (List.cons_ne_nil _ _) fun line h => (isLine_of_mem_lines hne h).newline

end Table

end NeighborSearch.Text
