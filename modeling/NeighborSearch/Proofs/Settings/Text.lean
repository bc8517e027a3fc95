import NeighborSearch.Proofs.Toml.Lines
import NeighborSearch.Settings.Layers
import NeighborSearch.Settings.Text

/-!
# Settings read back from their lines

The text of settings is lines of values and three sections of such lines. Every dialect whose
integers go far enough reads it as the table of the settings, entry by entry.
-/

namespace NeighborSearch.Settings

open Config (Value)
open Toml (Denotes Dialect)
open Toml.Document (Line linesText values leaves)

/-! ## The lines -/

/-- The line of a string, if it is there. -/
def pathLines (name : String) (path : Option String) : List Line :=
  (path.map fun text => ⟨name, Toml.quote text, .string text⟩).toList

def topLines (s : Settings) : List Line :=
  ⟨"version", Nat.toDigits 10 s.version.toNat, .integer s.version.toNat⟩
    :: (pathLines "model_path" s.modelPath ++ pathLines "index_path" s.indexPath
      ++ pathLines "workspace_root" s.workspaceRoot)

def embeddingLines (s : Settings) : List Line :=
  [⟨"l2_normalize", Toml.boolean s.embedding.l2Normalize, .boolean s.embedding.l2Normalize⟩,
    ⟨"quantize", Toml.boolean s.embedding.quantize, .boolean s.embedding.quantize⟩]

def searchLines (s : Settings) : List Line :=
  [⟨"max_results", Nat.toDigits 10 s.search.maxResults.toNat, .integer s.search.maxResults.toNat⟩,
    ⟨"metadata_allowlist", Toml.strings s.search.allowed,
      SearchSettings.stringsValue s.search.allowed⟩,
    ⟨"metadata_denylist", Toml.strings s.search.denied,
      SearchSettings.stringsValue s.search.denied⟩]

def loggingLines (s : Settings) : List Line :=
  [⟨"level", Toml.quote s.logging.level, .string s.logging.level⟩]

theorem linesText_pathLines (name : String) (path : Option String) :
    linesText (pathLines name path) = stringLine name path := by
  cases path with
  | none => rfl
  | some text => exact List.append_nil _

theorem toTomlChars_eq (s : Settings) :
    s.toTomlChars = linesText s.topLines
      ++ ((Toml.header "embedding" ++ linesText s.embeddingLines)
      ++ ((Toml.header "search" ++ linesText s.searchLines)
      ++ (Toml.header "logging" ++ linesText s.loggingLines))) := by
  have happend (ls ls' : List Line) : linesText (ls ++ ls') = linesText ls ++ linesText ls' :=
    List.flatMap_append
  have hcons (l : Line) (ls : List Line) :
      linesText (l :: ls) = Toml.line l.name l.text ++ linesText ls := List.flatMap_cons
  have hnil : linesText [] = [] := rfl
  simp only [toTomlChars, topLines, embeddingLines, searchLines, loggingLines, hcons, happend, hnil,
    linesText_pathLines, List.append_assoc, List.append_nil]

/-! ## Reading them -/

/-- The names of the lines before the sections, where all paths are there. -/
def topNames : List String :=
  ["version", "model_path", "index_path", "workspace_root"]

theorem names_topLines (s : Settings) : (s.topLines.map Line.name).Sublist topNames := by
  obtain ⟨_, model, index, root, _, _, _⟩ := s
  have hpath (name : String) (path : Option String) :
      ((pathLines name path).map Line.name).Sublist [name] := by
    cases path with
    | none => exact List.nil_sublist _
    | some text => exact List.Sublist.refl _
  simp only [topLines, List.map_cons, List.map_append]
  exact (((hpath _ model).append (hpath _ index)).append (hpath _ root)).cons_cons "version"

/-- No section has the name of a line before the sections. -/
theorem lookup_leaves_topLines (s : Settings) {name : String} (h : name ∉ topNames) :
    (leaves s.topLines).lookup name = none := by
  rw [Named.lookup_eq_none, leaves, List.map_map]
  exact fun hmem => h (s.names_topLines.subset hmem)

section

variable {dialect : Dialect} {s : Settings}

theorem valid_pathLines {name : String} (hname : Toml.IsBare name) (path : Option String) :
    ∀ l ∈ pathLines name path, l.Valid dialect := by
  intro l hl
  obtain ⟨text, -, rfl⟩ := Option.map_eq_some_iff.1 (Option.mem_toList.1 hl)
  exact ⟨hname, Toml.denotes_quote text⟩

theorem valid_topLines (hversion : dialect.integers.holds s.version.toNat = true) :
    ∀ l ∈ s.topLines, l.Valid dialect := by
  intro l hl
  simp only [topLines, List.mem_cons, List.mem_append] at hl
  obtain rfl | (hl | hl) | hl := hl
  · exact ⟨show Toml.IsBare "version" by decide, Toml.denotes_natural hversion⟩
  · exact valid_pathLines (by decide) s.modelPath l hl
  · exact valid_pathLines (by decide) s.indexPath l hl
  · exact valid_pathLines (by decide) s.workspaceRoot l hl

theorem valid_embeddingLines : ∀ l ∈ s.embeddingLines, l.Valid dialect := by
  intro l hl
  simp only [embeddingLines, List.mem_cons, List.not_mem_nil, or_false] at hl
  obtain rfl | rfl := hl
  · exact ⟨show Toml.IsBare "l2_normalize" by decide, Toml.denotes_boolean _⟩
  · exact ⟨show Toml.IsBare "quantize" by decide, Toml.denotes_boolean _⟩

theorem valid_searchLines (hdepth : 0 < dialect.depth)
    (hmax : dialect.integers.holds s.search.maxResults.toNat = true) :
    ∀ l ∈ s.searchLines, l.Valid dialect := by
  intro l hl
  simp only [searchLines, List.mem_cons, List.not_mem_nil, or_false] at hl
  obtain rfl | rfl | rfl := hl
  · exact ⟨show Toml.IsBare "max_results" by decide, Toml.denotes_natural hmax⟩
  · exact ⟨show Toml.IsBare "metadata_allowlist" by decide, Toml.denotes_strings hdepth _⟩
  · exact ⟨show Toml.IsBare "metadata_denylist" by decide, Toml.denotes_strings hdepth _⟩

theorem valid_loggingLines : ∀ l ∈ s.loggingLines, l.Valid dialect := by
  intro l hl
  obtain rfl := List.mem_singleton.1 hl
  exact ⟨show Toml.IsBare "level" by decide, Toml.denotes_quote _⟩

/-- The table that the lines fill. -/
def tree (s : Settings) : Toml.Tree.Entries :=
  leaves s.topLines ++ [("embedding", .table .header (leaves s.embeddingLines))]
    ++ [("search", .table .header (leaves s.searchLines))]
    ++ [("logging", .table .header (leaves s.loggingLines))]

theorem leads_toTomlChars (hdepth : 0 < dialect.depth)
    (hversion : dialect.integers.holds s.version.toNat = true)
    (hmax : dialect.integers.holds s.search.maxResults.toNat = true) :
    Toml.Document.Leads dialect s.toTomlChars {} ⟨["logging"], s.tree⟩ := by
  have hsearch : (leaves s.topLines
      ++ [("embedding", Toml.Tree.table .header (leaves s.embeddingLines))]).lookup "search"
      = none := by
    rw [List.lookup_append, lookup_leaves_topLines s (by decide)]
    rfl
  have hlogging : (leaves s.topLines
      ++ [("embedding", Toml.Tree.table .header (leaves s.embeddingLines))]
      ++ [("search", Toml.Tree.table .header (leaves s.searchLines))]).lookup "logging"
      = none := by
    rw [List.lookup_append, List.lookup_append, lookup_leaves_topLines s (by decide)]
    rfl
  have htop := Toml.Document.leads_lines hdepth Toml.Document.isPlace_top []
    (valid_topLines hversion) (s.names_topLines.nodup (by decide))
  rw [toTomlChars_eq]
  -- the sections follow one another, and the name of each one is new when it is opened
  refine htop.append ((Toml.Document.leads_section hdepth (by decide)
    (lookup_leaves_topLines s (by decide)) _ valid_embeddingLines
    (show ["l2_normalize", "quantize"].Nodup by decide)).append
    ((Toml.Document.leads_section hdepth (by decide) hsearch _ (valid_searchLines hdepth hmax)
      (show ["max_results", "metadata_allowlist", "metadata_denylist"].Nodup by decide)).append ?_))
  exact Toml.Document.leads_section hdepth (by decide) hlogging _ valid_loggingLines
    (List.nodup_singleton "level")

theorem values_pathLines (name : String) (path : Option String) :
    values (pathLines name path) = stringEntry name path := by
  cases path <;> rfl

theorem toEntries_tree (s : Settings) : Toml.Tree.toEntries s.tree = s.toTable := by
  have htop : values s.topLines = ("version", .integer s.version.toNat)
      :: (stringEntry "model_path" s.modelPath ++ stringEntry "index_path" s.indexPath
        ++ stringEntry "workspace_root" s.workspaceRoot) := by
    simp only [← values_pathLines]
    simp only [values, topLines, List.map_cons, List.map_append]
  simp only [tree, Toml.Document.toEntries_append, Toml.Document.toEntries_leaves, htop,
    Toml.Tree.toEntries, Toml.Tree.toValue, toTable, List.append_assoc, List.cons_append,
    List.nil_append]
  rfl

/-- The text of settings is read as their table. -/
theorem read?_toToml (hdepth : 0 < dialect.depth)
    (hversion : dialect.integers.holds s.version.toNat = true)
    (hmax : dialect.integers.holds s.search.maxResults.toNat = true) :
    Toml.read? dialect s.toToml = some s.toTable := by
  have hleads := leads_toTomlChars hdepth hversion hmax
  rw [← String.toList_ofList (l := s.toTomlChars)] at hleads
  have hread := hleads.read? ?_
  · rw [toToml, hread, toEntries_tree]
  · obtain ⟨u, hstart⟩ : ∃ u, s.toTomlChars = 'v' :: u := ⟨_, rfl⟩
    rw [String.toList_ofList, hstart]
    rintro t ⟨⟩

end

end NeighborSearch.Settings
