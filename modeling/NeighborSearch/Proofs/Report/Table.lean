import NeighborSearch.Proofs.Decimal.Fixed
import NeighborSearch.Proofs.Text.Table
import NeighborSearch.Report.Search

/-!
# The table of a search result

A neighbor takes as many lines of the table as its metadata has. The first of them also shows the
rank and the distance, which end at the same columns for all neighbors; the lines of the metadata
begin at the same column and are shown in full, and nothing but blanks fills them up. The distance
is said by its digits (`Decimal.IsFixedSingle`). This file gives

1. the lines of such a block and the columns at which their texts stand;
2. the texts of the rank and of the distance, which are single lines;
3. the columns of the table and the blocks of its rows;
4. the table as a whole, whose lines all have the same width.
-/

namespace NeighborSearch

open Text

/-! ## Lines with a rank, metadata and a distance -/

/-- The widths of the columns of a search result. -/
structure ResultColumns where
  rank : Nat
  metadata : Nat
  distance : Nat

def ResultColumns.widths (columns : ResultColumns) : List Nat :=
  [columns.rank, columns.metadata, columns.distance]

/-- A line of the block of a neighbor: three texts, and the numbers of blanks that fill up their
columns. -/
structure ResultLine where
  rank : List Char
  text : List Char
  distance : List Char
  beforeRank : Nat
  afterText : Nat
  beforeDistance : Nat

namespace ResultLine

/-- What stands between two cells. -/
def gap : List Char := [' ', '┆', ' ']

variable (line : ResultLine)

/-- The line up to the end of the rank. -/
def upToRank : List Char :=
  '│' :: ' ' :: (blanks line.beforeRank ++ line.rank)

/-- The line up to the beginning of the text. -/
def upToText : List Char :=
  line.upToRank ++ gap

/-- The line up to the end of the column of the text. -/
def upToMetadata : List Char :=
  line.upToText ++ (line.text ++ blanks line.afterText)

/-- The line up to the end of the distance. -/
def upToDistance : List Char :=
  line.upToMetadata ++ gap ++ (blanks line.beforeDistance ++ line.distance)

/-- The whole line. -/
def chars : List Char :=
  line.upToDistance ++ [' ', '│']

/-- The texts of a line stand in these columns: the rank and the distance at the right, the text of
the metadata at the left. -/
structure StandsIn (columns : ResultColumns) : Prop where
  rank_end : width line.upToRank = columns.rank + 2
  text_start : width line.upToText = columns.rank + 5
  metadata_end : width line.upToMetadata = columns.rank + columns.metadata + 5
  distance_end : width line.upToDistance
    = columns.rank + columns.metadata + columns.distance + 8

theorem width_gap (s t : List Char) : width (s ++ gap ++ t) = width s + 3 + width t := by
  have halone : StandsAlone (gap ++ t) := standsAlone_blank_cons _
  have hgap : width (gap ++ t) = 3 + width t := by
    show width (' ' :: '┆' :: ' ' :: t) = 3 + width t
    rw [width_blank_cons, isBar_divider.width_cons (standsAlone_blank_cons t), width_blank_cons]
    omega
  rw [List.append_assoc, width_append s halone, hgap, Nat.add_assoc]

/-- Texts that take their columns with the blanks beside them stand in these columns. -/
theorem standsIn {line : ResultLine} {columns : ResultColumns}
    (hrank : line.beforeRank + width line.rank = columns.rank)
    (htext : width line.text + line.afterText = columns.metadata)
    (hdistance : line.beforeDistance + width line.distance = columns.distance) :
    line.StandsIn columns := by
  have hrankEnd : width line.upToRank = columns.rank + 2 := by
    rw [upToRank, isBar_edge.width_cons (standsAlone_blank_cons _), width_blank_cons,
      width_blanks_append]
    omega
  have htextStart : width line.upToText = columns.rank + 5 := by
    rw [upToText, ← List.append_nil (_ ++ gap), width_gap, hrankEnd]
    rfl
  have hmetadataEnd : width line.upToMetadata = columns.rank + columns.metadata + 5 := by
    rw [upToMetadata, upToText, width_gap, hrankEnd, width_append _ (standsAlone_blanks _),
      width_blanks]
    omega
  -- what the text ends with cannot reach beyond the blank after it
  refine ⟨hrankEnd, htextStart, hmetadataEnd, ?_⟩
  rw [upToDistance, width_gap, hmetadataEnd, width_blanks_append]
  omega

end ResultLine

/-- The line with these texts in these columns. -/
def ResultColumns.line (columns : ResultColumns) (rank text distance : List Char) : ResultLine where
  rank := rank
  text := text
  distance := distance
  beforeRank := columns.rank - width rank
  afterText := columns.metadata - width text
  beforeDistance := columns.distance - width distance

theorem ResultColumns.standsIn_line {columns : ResultColumns} {rank text distance : List Char}
    (hrank : width rank ≤ columns.rank) (htext : width text ≤ columns.metadata)
    (hdistance : width distance ≤ columns.distance) :
    (columns.line rank text distance).StandsIn columns :=
  ResultLine.standsIn (Nat.sub_add_cancel hrank) (Nat.add_sub_cancel' htext)
    (Nat.sub_add_cancel hdistance)

/-- Cells whose texts stand at these sides make such a line. -/
theorem ResultColumns.joinCells_eq (columns : ResultColumns) {rank metadata distance : Cell}
    (hrank : rank.alignment = .right) (hmetadata : metadata.alignment = .left)
    (hdistance : distance.alignment = .right) (j : Nat) :
    joinCells [rank.line columns.rank j, metadata.line columns.metadata j,
        distance.line columns.distance j]
      = (columns.line (rank.textAt j) (metadata.textAt j) (distance.textAt j)).chars := by
  rw [Cell.line_of_right hrank, Cell.line_of_left hmetadata, Cell.line_of_right hdistance,
    joinCells, List.intercalate_cons_cons, List.intercalate_cons_cons, List.intercalate_singleton]
  simp [ResultLine.chars, ResultLine.upToDistance, ResultLine.upToMetadata, ResultLine.upToText,
    ResultLine.upToRank, ResultLine.gap, line]

/-! ## Ranks and distances -/

theorem newline_notMem_digits (n : Nat) : '\n' ∉ Nat.toDigits 10 n :=
  fun h => absurd ((isDigits_toDigits n).digits _ h) (by decide)

theorem newline_notMem_toString (n : Nat) : '\n' ∉ (toString n).toList := by
  rw [Nat.toString_eq_repr, Nat.toList_repr]
  exact newline_notMem_digits n

theorem newline_notMem_renderFixed (places : Nat) (x : Decimal.Magnitude) :
    '\n' ∉ x.renderFixed places := by
  simp [Decimal.Magnitude.renderFixed, Decimal.padDigits, newline_notMem_digits]

theorem newline_notMem_fixedSingle (places : Nat) (x : Float32) :
    '\n' ∉ (Decimal.fixedSingle places x).toList := by
  unfold Decimal.fixedSingle
  split
  · decide
  · have hsize : '\n' ∉ (if x.isInf then ['i', 'n', 'f']
        else (Decimal.Magnitude.ofSingleBits x.toBits).renderFixed places) := by
      split
      · decide
      · exact newline_notMem_renderFixed _ _
    rw [String.toList_ofList]
    split
    · rw [List.mem_cons, not_or]
      exact ⟨by decide, hsize⟩
    · exact hsize

/-! ## The blocks of the neighbors -/

namespace Neighbor

/-- The lines of a block show a neighbor at a position: each of them shows a line of its metadata,
and the first one its rank and its distance with six places, too. -/
def ShownBy (neighbor : Neighbor) (position : Nat) (columns : ResultColumns)
    (block : List (List Char)) : Prop :=
  ∃ distance : String, Decimal.IsFixedSingle 6 neighbor.distance distance.toList
    ∧ List.Forall₂
      (fun text chars => ∃ line : ResultLine, line.chars = chars ∧ line.StandsIn columns
        ∧ line.text = text.1
        ∧ line.rank = onFirstLine (toString (position + 1)) text.2
        ∧ line.distance = onFirstLine distance text.2)
      (splitOn '\n' neighbor.metadata.toList).zipIdx block

/-- The cell of the rank of the neighbor at a position. -/
def rankCell (position : Nat) : Cell :=
  ⟨toString (position + 1), .right⟩

def metadataCell (neighbor : Neighbor) : Cell :=
  ⟨neighbor.metadata, .left⟩

def distanceCell (neighbor : Neighbor) : Cell :=
  ⟨Decimal.fixedSingle distancePlaces neighbor.distance, .right⟩

variable (neighbor : Neighbor) (position : Nat)

theorem row_eq :
    neighbor.row position = [rankCell position, neighbor.metadataCell, neighbor.distanceCell] :=
  rfl

theorem lines_metadataCell :
    neighbor.metadataCell.lines = splitOn '\n' neighbor.metadata.toList := by
  rw [Cell.lines, metadataCell]

theorem newline_notMem_rankCell : '\n' ∉ (rankCell position).text.toList :=
  newline_notMem_toString _

theorem newline_notMem_distanceCell : '\n' ∉ neighbor.distanceCell.text.toList :=
  newline_notMem_fixedSingle _ _

/-- A row is as high as its metadata: the rank and the distance take one line. -/
theorem height_row : height (neighbor.row position) = neighbor.metadataCell.lines.length := by
  have hpos : 0 < neighbor.metadataCell.lines.length :=
    List.length_pos_iff.2 (splitOn_ne_nil _ _)
  have hrank : (rankCell position).lines.length = 1 := by
    rw [Cell.lines, splitOn_of_not_mem (newline_notMem_rankCell position)]
    rfl
  have hdistance : neighbor.distanceCell.lines.length = 1 := by
    rw [Cell.lines, splitOn_of_not_mem neighbor.newline_notMem_distanceCell]
    rfl
  rw [row_eq, height]
  simp only [List.map_cons, List.map_nil, List.foldl_cons, List.foldl_nil, hrank, hdistance]
  omega

theorem shownBy_drawRow {columns : ResultColumns}
    (h : List.Forall₂ (fun cell w => cell.width ≤ w) (neighbor.row position) columns.widths) :
    neighbor.ShownBy position columns (drawRow columns.widths (neighbor.row position)) := by
  obtain ⟨hrank, hmetadata, hdistance⟩ : (rankCell position).width ≤ columns.rank
      ∧ neighbor.metadataCell.width ≤ columns.metadata
      ∧ neighbor.distanceCell.width ≤ columns.distance := by
    simpa [row_eq, ResultColumns.widths] using h
  refine ⟨neighbor.distanceCell.text, Decimal.isFixedSingle_fixedSingle (by decide) _, ?_⟩
  rw [List.forall₂_iff_get]
  refine ⟨?_, fun j hj _ => ?_⟩
  · rw [drawRow, List.length_zipIdx, List.length_map, List.length_range, height_row,
      lines_metadataCell]
  · rw [List.length_zipIdx, ← lines_metadataCell] at hj
    -- the rank and the distance have one line only, so below it their cells show nothing
    simp only [← lines_metadataCell, List.get_eq_getElem, List.getElem_zipIdx, Nat.zero_add,
      drawRow, List.getElem_map, List.getElem_range, row_eq, ResultColumns.widths,
      List.zipWith_cons_cons, List.zipWith_nil_left]
    refine ⟨columns.line ((rankCell position).textAt j) (neighbor.metadataCell.textAt j)
      (neighbor.distanceCell.textAt j), (columns.joinCells_eq rfl rfl rfl j).symm,
      ResultColumns.standsIn_line (Nat.le_trans (Cell.width_textAt_le _ j) hrank)
        (Nat.le_trans (Cell.width_textAt_le _ j) hmetadata)
        (Nat.le_trans (Cell.width_textAt_le _ j) hdistance), ?_, ?_, ?_⟩
    · exact Cell.textAt_of_lt hj
    · exact Cell.textAt_of_singleLine (newline_notMem_rankCell position) j
    · exact Cell.textAt_of_singleLine neighbor.newline_notMem_distanceCell j

end Neighbor

/-! ## The table -/

/-- The titles of the columns. -/
def resultHeader : List Cell :=
  [⟨"Rank", .left⟩, ⟨"Metadata", .left⟩, ⟨"Distance", .left⟩]

namespace ResultColumns

/-- The line with the titles. -/
def heading (columns : ResultColumns) : List Char :=
  joinCells (List.zipWith (fun title w => title.line w 0) resultHeader columns.widths)

/-- The lines of a table in these columns show neighbors: under the titles stands one block for each
of them, in their order. -/
def Show (columns : ResultColumns) (neighbors : List Neighbor) (lines : List (List Char)) : Prop :=
  ∃ blocks : List (List (List Char)),
    lines = [Rule.top.draw columns.widths, columns.heading, Rule.underHeader.draw columns.widths]
      ++ [Rule.between.draw columns.widths].intercalate blocks
      ++ [Rule.bottom.draw columns.widths]
    ∧ List.Forall₂ (fun n block => n.1.ShownBy n.2 columns block) neighbors.zipIdx blocks

end ResultColumns

namespace SearchResult

variable (result : SearchResult)

/-- The columns of the table of a result. -/
def columns : ResultColumns :=
  ⟨result.table.columnWidth 0, result.table.columnWidth 1, result.table.columnWidth 2⟩

theorem resultHeader_mem : resultHeader ∈ result.table.allRows :=
  List.mem_append_left _ (List.mem_singleton_self resultHeader)

theorem row_mem {n : Neighbor × Nat} (h : n ∈ result.neighbors.zipIdx) :
    n.1.row n.2 ∈ result.table.allRows :=
  List.mem_append_right _ (List.mem_map_of_mem h)

theorem length_of_mem_allRows {row : List Cell} (h : row ∈ result.table.allRows) :
    row.length = 3 := by
  rcases List.mem_append.1 h with hheader | hrow
  · rw [List.mem_singleton.1 hheader]
    rfl
  · obtain ⟨n, -, rfl⟩ := List.mem_map.1 hrow
    rfl

theorem widths_table : result.table.widths = result.columns.widths := by
  have hcolumns : result.table.columns = 3 :=
    Table.columns_eq (fun _ => result.length_of_mem_allRows) result.resultHeader_mem
  rw [Table.widths, hcolumns]
  rfl

/-- No cells are added to the rows. -/
theorem fillRow_table {row : List Cell} (h : row ∈ result.table.allRows) :
    fillRow row result.columns.widths.length = row := by
  rw [fillRow, result.length_of_mem_allRows h]
  exact List.append_nil row

theorem fits_table {row : List Cell} (h : row ∈ result.table.allRows) :
    List.Forall₂ (fun cell w => cell.width ≤ w) row result.columns.widths := by
  have hfits := Table.fits_fillRow h
  rwa [widths_table, result.fillRow_table h] at hfits

theorem headerLines_table : result.table.headerLines result.columns.widths
    = [result.columns.heading, Rule.underHeader.draw result.columns.widths] := by
  have hheight : height resultHeader = 1 := by decide
  have hheader : result.table.header = some resultHeader := rfl
  rw [Table.headerLines, hheader]
  show Table.rowLines result.columns.widths resultHeader ++ _ = _
  rw [Table.rowLines, result.fillRow_table result.resultHeader_mem, drawRow, hheight]
  rfl

theorem lines_table : result.table.lines
    = [Rule.top.draw result.columns.widths, result.columns.heading,
        Rule.underHeader.draw result.columns.widths]
      ++ [Rule.between.draw result.columns.widths].intercalate
        (result.neighbors.zipIdx.map fun n => drawRow result.columns.widths (n.1.row n.2))
      ++ [Rule.bottom.draw result.columns.widths] := by
  have hblocks : result.table.rows.map (Table.rowLines result.columns.widths)
      = result.neighbors.zipIdx.map fun n => drawRow result.columns.widths (n.1.row n.2) := by
    rw [show result.table.rows = result.neighbors.zipIdx.map fun n => n.1.row n.2 from rfl,
      List.map_map]
    refine List.map_congr_left fun n hn => ?_
    rw [Function.comp_apply, Table.rowLines, result.fillRow_table (result.row_mem hn)]
  simp only [Table.lines, Table.bodyLines, widths_table, headerLines_table, hblocks]

theorem widths_ne_nil : result.table.widths ≠ [] := by
  rw [widths_table]
  exact List.cons_ne_nil _ _

/-- The text of the table shows the neighbors of the result. -/
theorem show_table :
    result.columns.Show result.neighbors (splitOn '\n' result.table.toText.toList) := by
  rw [Table.splitOn_toText result.widths_ne_nil]
  refine ⟨_, result.lines_table, ?_⟩
  rw [List.forall₂_map_right_iff, List.forall₂_same]
  exact fun n hn => n.1.shownBy_drawRow n.2 (result.fits_table (result.row_mem hn))

/-- The table shows all neighbors in order, each with its rank, its metadata in full and the digits
of its distance, and all its lines have the same width. -/
theorem table_shows_neighbors :
    result.columns.Show result.neighbors (splitOn '\n' result.table.toText.toList)
      ∧ ∀ line ∈ splitOn '\n' result.table.toText.toList, width line
          = result.columns.rank + result.columns.metadata + result.columns.distance + 10 := by
  refine ⟨result.show_table, fun line hline => ?_⟩
  rw [Table.splitOn_toText result.widths_ne_nil] at hline
  rw [(Table.isLine_of_mem_lines result.widths_ne_nil hline).width_eq, widths_table]
  simp only [ResultColumns.widths, List.sum_cons, List.sum_nil, List.length_cons, List.length_nil]
  omega

end SearchResult

end NeighborSearch
