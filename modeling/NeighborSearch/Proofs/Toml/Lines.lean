import NeighborSearch.Proofs.Named
import NeighborSearch.Proofs.Toml.Values

/-!
# Lines of TOML documents

Lines with names and values fill a document one after the other, and headers open sections of it.
`Leads` says that a text takes a document to another one, whatever follows the text; such steps are
put together, and a whole text that leads from the empty document is read as what it leads to.
-/

namespace NeighborSearch.Toml

open Config (Value)

/-! ## Names -/

/-- A name that needs no quotes. -/
structure IsBare (name : String) : Prop where
  nonempty : name.toList ≠ []
  bare : ∀ c ∈ name.toList, isBare c = true

instance (name : String) : Decidable (IsBare name) :=
  decidable_of_iff (name.toList ≠ [] ∧ name.toList.all isBare = true)
    ⟨fun h => ⟨h.1, List.all_eq_true.1 h.2⟩, fun h => ⟨h.nonempty, List.all_eq_true.2 h.bare⟩⟩

theorem isBare_ne {c d : Char} (h : isBare c = true) (hd : isBare d = false) : c ≠ d := by
  rintro rfl
  rw [hd] at h
  cases h

theorem skipBlanks_of_not_blank {c : Char} (h : isBlank c = false) (t : List Char) :
    skipBlanks (c :: t) = c :: t :=
  List.dropWhile_cons_of_neg (Bool.eq_false_iff.1 h)

theorem isBlank_of_isBare {c : Char} (h : isBare c = true) : isBlank c = false := by
  simp [isBlank, isBare_ne h (d := ' ') rfl, isBare_ne h (d := '\t') rfl]

section

variable {dialect : Dialect} {name : String} {rest : List Char}

theorem readPart_bare (hname : IsBare name) (hrest : Text.startsWith isBare rest = false) :
    readPart dialect (name.toList ++ rest) = some (name, rest) := by
  obtain ⟨c, t, htext⟩ := List.exists_cons_of_ne_nil hname.nonempty
  have hc := hname.bare c (htext ▸ List.mem_cons_self)
  have htake := Text.takeWhile_run hname.bare hrest
  have hdrop := Text.dropWhile_run hname.bare hrest
  rw [htext, List.cons_append] at htake hdrop ⊢
  rw [readPart, htake, hdrop]
  · show some (String.ofList (c :: t), rest) = some (name, rest)
    rw [← htext, String.ofList_toList]
  · rintro u h
    exact isBare_ne hc (d := '"') rfl (List.cons.inj h).1
  · rintro u h
    exact isBare_ne hc (d := '\'') rfl (List.cons.inj h).1

/-- A bare name that no point follows is a name of its own. -/
theorem readName_bare (hdepth : 0 < dialect.depth) (hname : IsBare name)
    (hrest : Text.startsWith isBare rest = false) (hpoint : ∀ t, skipBlanks rest ≠ '.' :: t) :
    readName dialect (name.toList ++ rest) = some ([], name, skipBlanks rest) := by
  have hskip : skipBlanks (name.toList ++ rest) = name.toList ++ rest := by
    obtain ⟨c, t, htext⟩ := List.exists_cons_of_ne_nil hname.nonempty
    rw [htext]
    exact skipBlanks_of_not_blank (isBlank_of_isBare (hname.bare c (htext ▸ List.mem_cons_self))) _
  have hparts : readParts dialect dialect.depth (name.toList ++ rest)
      = some ([name], skipBlanks rest) := by
    obtain ⟨depth, hsucc⟩ := Nat.exists_eq_add_of_le' hdepth
    rw [hsucc, readParts, hskip, readPart_bare hname hrest]
    dsimp only
    split
    · next t h => exact absurd h (hpoint t)
    · rfl
  rw [readName, hparts]
  rfl

end

/-! ## Documents -/

namespace Document

variable {dialect : Dialect}

/-- Adds a value under a name to the current table. -/
def add (document : Document) (name : String) (value : Value) : Option Document :=
  (Tree.change (fun entries => Tree.insert entries [] name value) document.root
    document.current).map fun root => { document with root }

theorem readEntry_line (hdepth : 0 < dialect.depth) {name : String} (hname : IsBare name)
    {text : List Char} {value : Value} (hvalue : Denotes dialect text value) (document : Document)
    (rest : List Char) :
    document.readEntry dialect (name.toList ++ ' ' :: '=' :: ' ' :: (text ++ '\n' :: rest))
      = (document.add name value).map fun document => (document, '\n' :: rest) := by
  have hread : readName dialect (name.toList ++ ' ' :: '=' :: ' ' :: (text ++ '\n' :: rest))
      = some ([], name, '=' :: ' ' :: (text ++ '\n' :: rest)) :=
    readName_bare hdepth hname rfl (by rintro t ⟨⟩)
  have hskip : skipBlanks (' ' :: (text ++ '\n' :: rest)) = text ++ '\n' :: rest := by
    obtain ⟨c, t, htext, hc⟩ := hvalue.start
    rw [htext]
    exact skipBlanks_of_not_blank hc _
  have hlength : text.length + 2 ≤ 2 * (' ' :: (text ++ '\n' :: rest)).length + 2 := by
    rw [List.length_cons, List.length_append]
    omega
  rw [readEntry, hread]
  simp only [hskip, hvalue.read _ rest hlength]
  rw [add, Option.map_map]
  rfl

/-- A line goes on to the next one with what it said. -/
theorem readLines_of_readLine {document next : Document} {s rest : List Char} (fuel : Nat)
    (h : document.readLine dialect (skipBlanks s) = some (next, '\n' :: rest)) :
    readLines dialect (fuel + 1) document s = readLines dialect fuel next rest := by
  rw [readLines, h]
  rfl

theorem readLines_line (hdepth : 0 < dialect.depth) {name : String} (hname : IsBare name)
    {text : List Char} {value : Value} (hvalue : Denotes dialect text value)
    {document next : Document} (hadd : document.add name value = some next) (fuel : Nat)
    (rest : List Char) :
    readLines dialect (fuel + 1) document (line name text ++ rest)
      = readLines dialect fuel next rest := by
  have hentry := readEntry_line hdepth hname hvalue document rest
  rw [hadd, Option.map_some] at hentry
  have htext : line name text ++ rest
      = name.toList ++ ' ' :: '=' :: ' ' :: (text ++ '\n' :: rest) := by
    simp [line]
  obtain ⟨c, t, hstart⟩ := List.exists_cons_of_ne_nil hname.nonempty
  have hc := hname.bare c (hstart ▸ List.mem_cons_self)
  have hplain : ¬(c = '#' ∨ c = '\n' ∨ c = '\r') := by
    rintro (h | h | h)
    · exact isBare_ne hc (d := '#') rfl h
    · exact isBare_ne hc (d := '\n') rfl h
    · exact isBare_ne hc (d := '\r') rfl h
  apply readLines_of_readLine
  rw [htext, hstart, List.cons_append, skipBlanks_of_not_blank (isBlank_of_isBare hc), readLine,
    if_neg hplain, if_neg (isBare_ne hc (d := '[') rfl), ← List.cons_append, ← hstart, hentry]

theorem readLines_header (hdepth : 0 < dialect.depth) {name : String} (hname : IsBare name)
    {document next : Document} (hopen : document.openHeader false [] name = some next) (fuel : Nat)
    (rest : List Char) :
    readLines dialect (fuel + 2) document (header name ++ rest)
      = readLines dialect fuel next rest := by
  have hread : readName dialect (name.toList ++ ']' :: '\n' :: rest)
      = some ([], name, ']' :: '\n' :: rest) :=
    readName_bare hdepth hname rfl (by rintro t ⟨⟩)
  have htext : header name ++ rest = '\n' :: '[' :: (name.toList ++ ']' :: '\n' :: rest) := by
    simp [header]
  have hblank : readLines dialect (fuel + 2) document (header name ++ rest)
      = readLines dialect (fuel + 1) document ('[' :: (name.toList ++ ']' :: '\n' :: rest)) := by
    rw [htext]
    exact readLines_of_readLine (fuel + 1) rfl
  have hsingle : ((name.toList ++ ']' :: '\n' :: rest).head? == some '[') = false := by
    obtain ⟨c, t, hstart⟩ := List.exists_cons_of_ne_nil hname.nonempty
    have hc := isBare_ne (hname.bare c (hstart ▸ List.mem_cons_self)) (d := '[') rfl
    rw [hstart]
    simpa using hc
  rw [hblank]
  apply readLines_of_readLine
  have hheader : document.readHeader dialect (name.toList ++ ']' :: '\n' :: rest)
      = some (next, '\n' :: rest) := by
    simp only [readHeader, hsingle, Bool.false_eq_true, if_false, hread, hopen]
  exact hheader

/-! ## Texts that lead on -/

/-- A text takes a document to another one, in at most as many lines as it has characters. -/
def Leads (dialect : Dialect) (text : List Char) (document next : Document) : Prop :=
  ∃ lines ≤ text.length, ∀ fuel rest,
    readLines dialect (fuel + lines) document (text ++ rest) = readLines dialect fuel next rest

theorem Leads.refl (document : Document) : Leads dialect [] document document :=
  ⟨0, Nat.le_refl 0, fun _ _ => rfl⟩

theorem Leads.append {text text' : List Char} {document next last : Document}
    (first : Leads dialect text document next) (second : Leads dialect text' next last) :
    Leads dialect (text ++ text') document last := by
  obtain ⟨lines, hlines, hfirst⟩ := first
  obtain ⟨lines', hlines', hsecond⟩ := second
  refine ⟨lines' + lines, ?_, fun fuel rest => ?_⟩
  · rw [List.length_append]
    omega
  · rw [List.append_assoc, ← Nat.add_assoc, hfirst, hsecond]

theorem Leads.line (hdepth : 0 < dialect.depth) {name : String} (hname : IsBare name)
    {text : List Char} {value : Value} (hvalue : Denotes dialect text value)
    {document next : Document} (hadd : document.add name value = some next) :
    Leads dialect (line name text) document next := by
  refine ⟨1, ?_, readLines_line hdepth hname hvalue hadd⟩
  simp only [Toml.line, List.length_append, List.length_singleton]
  omega

theorem Leads.header (hdepth : 0 < dialect.depth) {name : String} (hname : IsBare name)
    {document next : Document} (hopen : document.openHeader false [] name = some next) :
    Leads dialect (header name) document next := by
  refine ⟨2, ?_, readLines_header hdepth hname hopen⟩
  simp [Toml.header]

/-- A text that leads from the empty document is read as what it leads to. -/
theorem Leads.read? {text : String} {last : Document} (h : Leads dialect text.toList {} last)
    (hmark : ∀ t, text.toList ≠ '\ufeff' :: t) :
    Toml.read? dialect text = some (Tree.toEntries last.root) := by
  obtain ⟨lines, hlines, hread⟩ := h
  have hdrop : dropMark text.toList = text.toList := by
    unfold dropMark
    split
    · next t heq => exact absurd heq (hmark t)
    · rfl
  have hwhole := hread (text.toList.length - lines + 1) []
  rw [List.append_nil, Nat.add_right_comm, Nat.sub_add_cancel hlines] at hwhole
  rw [Toml.read?, hdrop, hwhole]
  rfl

/-! ## Runs of lines -/

/-- A place in a document where values can be added: the document with given entries there. -/
def IsPlace (place : Tree.Entries → Document) : Prop :=
  ∀ entries name value, entries.lookup name = none →
    (place entries).add name value = some (place (entries ++ [(name, .leaf value)]))

theorem insert_new {entries : Tree.Entries} {name : String} (h : entries.lookup name = none)
    (value : Value) :
    Tree.insert entries [] name value = some (entries ++ [(name, .leaf value)]) := by
  rw [Tree.insert, h]

/-- Before any header values are added to the document itself. -/
theorem isPlace_top : IsPlace fun entries => ⟨[], entries⟩ := by
  intro entries name value h
  rw [add, Tree.change, insert_new h, Option.map_some]

/-- After a header they are added to its section. -/
theorem isPlace_section {before : Tree.Entries} {name : String} (h : before.lookup name = none) :
    IsPlace fun entries => ⟨[name], before ++ [(name, .table .header entries)]⟩ := by
  intro entries other value hother
  have hlookup : (before ++ [(name, Tree.table .header entries)]).lookup name
      = some (.table .header entries) := by
    rw [List.lookup_append, h, Option.none_or, List.lookup_cons_self]
  rw [add, Tree.change, hlookup]
  simp only [Tree.change, insert_new hother, Option.map_some]
  rw [Named.put_append h]

/-- A line: a name, the text of its value, and the value. -/
structure Line where
  name : String
  text : List Char
  value : Value

/-- What makes a line readable. -/
structure Line.Valid (dialect : Dialect) (l : Line) : Prop where
  name : IsBare l.name
  text : Denotes dialect l.text l.value

/-- The text of lines. -/
def linesText (ls : List Line) : List Char :=
  ls.flatMap fun l => Toml.line l.name l.text

/-- The entries that lines add. -/
def leaves (ls : List Line) : Tree.Entries :=
  ls.map fun l => (l.name, .leaf l.value)

theorem leads_lines (hdepth : 0 < dialect.depth) {place : Tree.Entries → Document}
    (hplace : IsPlace place) (entries : Tree.Entries) {ls : List Line}
    (hls : ∀ l ∈ ls, l.Valid dialect)
    (hnew : (entries.map Prod.fst ++ ls.map Line.name).Nodup) :
    Leads dialect (linesText ls) (place entries) (place (entries ++ leaves ls)) := by
  induction ls generalizing entries with
  | nil =>
    rw [leaves, List.map_nil, List.append_nil]
    exact .refl _
  | cons l ls ih =>
    obtain ⟨hl, hls⟩ := List.forall_mem_cons.1 hls
    rw [List.map_cons] at hnew
    have hfresh : entries.lookup l.name = none := by
      rw [Named.lookup_eq_none]
      exact fun h => List.disjoint_of_nodup_append hnew h List.mem_cons_self
    have hrest : ((entries ++ [(l.name, Tree.leaf l.value)]).map Prod.fst
        ++ ls.map Line.name).Nodup := by
      rw [List.map_append, List.append_assoc]
      exact hnew
    have hlast := ih _ hls hrest
    rw [List.append_assoc] at hlast
    exact (Leads.line hdepth hl.name hl.text (hplace entries l.name l.value hfresh)).append hlast

/-- A header and the lines of its section add a table. -/
theorem leads_section (hdepth : 0 < dialect.depth) {name : String} (hname : IsBare name)
    {before : Tree.Entries} (hbefore : before.lookup name = none) (current : List String)
    {ls : List Line} (hls : ∀ l ∈ ls, l.Valid dialect) (hnames : (ls.map Line.name).Nodup) :
    Leads dialect (Toml.header name ++ linesText ls) ⟨current, before⟩
      ⟨[name], before ++ [(name, .table .header (leaves ls))]⟩ := by
  have hopen : openHeader ⟨current, before⟩ false [] name
      = some ⟨[name], before ++ [(name, .table .header [])]⟩ := by
    simp only [openHeader, Tree.change, Tree.openTable, hbefore, Bool.false_eq_true, if_false,
      Option.map_some, List.nil_append]
  exact (Leads.header hdepth hname hopen).append
    (leads_lines hdepth (isPlace_section hbefore) [] hls hnames)

/-- The values that lines add. -/
def values (ls : List Line) : Config.Entries :=
  ls.map fun l => (l.name, l.value)

theorem toEntries_append (entries others : Tree.Entries) :
    Tree.toEntries (entries ++ others) = Tree.toEntries entries ++ Tree.toEntries others := by
  induction entries with
  | nil => rfl
  | cons entry entries ih =>
    obtain ⟨name, tree⟩ := entry
    rw [List.cons_append, Tree.toEntries, Tree.toEntries, ih, List.cons_append]

theorem toEntries_leaves (ls : List Line) : Tree.toEntries (leaves ls) = values ls := by
  induction ls with
  | nil => rfl
  | cons l ls ih =>
    rw [leaves, List.map_cons, Tree.toEntries, Tree.toValue]
    exact congrArg _ ih

end Document

end NeighborSearch.Toml
