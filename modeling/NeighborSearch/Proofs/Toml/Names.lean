import NeighborSearch.Proofs.Config.Names
import NeighborSearch.Toml.Reader

/-!
# Names in TOML documents

A document may not say a name twice. Adding a value, opening a table and reading a line keep the
tables so far in this state, whatever the way to what is added, so in the table of a document each
name stands once at every depth.
-/

namespace NeighborSearch.Toml

open Config (Value)

/-! ## Trees -/

namespace Tree

variable {entries last changed : Entries} {before : List Entries} {name : String} {tree : Tree}
variable {value : Value} {way : List String}

theorem toEntries_eq_map (entries : Entries) :
    toEntries entries = entries.map fun (name, tree) => (name, tree.toValue) := by
  induction entries with
  | nil => rw [toEntries, List.map_nil]
  | cons entry rest ih => rw [toEntries, ih, List.map_cons]

theorem lookup_toEntries (entries : Entries) (name : String) :
    (toEntries entries).lookup name = (entries.lookup name).map toValue := by
  rw [toEntries_eq_map, Named.lookup_map fun _ tree => toValue tree]

theorem toEntries_append (entries : Entries) (name : String) (tree : Tree) :
    toEntries (entries ++ [(name, tree)]) = toEntries entries ++ [(name, tree.toValue)] := by
  simp only [toEntries_eq_map, List.map_append, List.map_cons, List.map_nil]

theorem toEntries_put (entries : Entries) (name : String) (tree : Tree) :
    toEntries (Named.put entries name tree)
      = Named.put (toEntries entries) name tree.toValue := by
  induction entries with
  | nil => rw [Named.put, toEntries, toEntries, toEntries, Named.put]
  | cons entry rest ih =>
    rw [Named.put, toEntries, Named.put]
    split
    · rw [toEntries]
    · rw [toEntries, ih]

theorem mem_toTables {before : List Entries} {after : List Value} {item : Value} :
    item ∈ toTables before after
      ↔ (∃ entries ∈ before, item = .table (toEntries entries)) ∨ item ∈ after := by
  induction before generalizing after with
  | nil => rw [toTables]; simp
  | cons entries before ih =>
    rw [toTables, ih, List.mem_cons, List.exists_mem_cons_iff, or_left_comm, or_assoc]

/-- No name stands twice in the tables of entries. -/
def Distinct (entries : Entries) : Prop :=
  (Value.table (toEntries entries)).Distinct

theorem distinct_nil : Distinct [] := by
  rw [Distinct, toEntries]
  exact Value.distinct_empty

theorem Distinct.lookup (h : Distinct entries) (htree : entries.lookup name = some tree) :
    tree.toValue.Distinct :=
  Value.Distinct.lookup h ((lookup_toEntries entries name).trans (by rw [htree, Option.map_some]))

theorem Distinct.append (h : Distinct entries) (hname : entries.lookup name = none)
    (htree : tree.toValue.Distinct) : Distinct (entries ++ [(name, tree)]) := by
  rw [Distinct, toEntries_append]
  exact Value.Distinct.append h (by rw [lookup_toEntries, hname, Option.map_none]) htree

theorem Distinct.put (h : Distinct entries) (htree : tree.toValue.Distinct) :
    Distinct (Named.put entries name tree) := by
  rw [Distinct, toEntries_put]
  exact Value.Distinct.put h htree

theorem distinct_table {origin : Origin} :
    (table origin entries).toValue.Distinct ↔ Distinct entries := by
  rw [toValue, Distinct]

theorem distinct_tables :
    (tables last before).toValue.Distinct
      ↔ Distinct last ∧ ∀ entries ∈ before, Distinct entries := by
  rw [toValue, Value.distinct_array_iff]
  simp only [mem_toTables, List.mem_singleton, Distinct]
  constructor
  · exact fun h => ⟨h _ (.inr rfl), fun entries hentries => h _ (.inl ⟨entries, hentries, rfl⟩)⟩
  · rintro ⟨hlast, hbefore⟩ _ (⟨entries, hentries, rfl⟩ | rfl)
    · exact hbefore entries hentries
    · exact hlast

/-! ## Additions -/

/-- A value is added under a name that is new. -/
theorem Distinct.insert (h : Distinct entries) (hvalue : value.Distinct)
    (hinsert : Tree.insert entries way name value = some changed) : Distinct changed := by
  induction way generalizing entries changed with
  | nil =>
    rw [Tree.insert] at hinsert
    split at hinsert
    · next hname =>
      cases hinsert
      exact h.append hname (by rwa [toValue])
    · cases hinsert
  | cons step way ih =>
    rw [Tree.insert] at hinsert
    split at hinsert
    · next hstep =>
      obtain ⟨inner, hinner, rfl⟩ := Option.map_eq_some_iff.1 hinsert
      exact h.append hstep (distinct_table.2 (ih distinct_nil hinner))
    · next hstep =>
      split at hinsert
      · cases hinsert
      · obtain ⟨inner, hinner, rfl⟩ := Option.map_eq_some_iff.1 hinsert
        exact h.put (distinct_table.2 (ih (distinct_table.1 (h.lookup hstep)) hinner))
    · next hstep =>
      split at hinsert
      · cases hinsert
      · obtain ⟨inner, hinner, rfl⟩ := Option.map_eq_some_iff.1 hinsert
        obtain ⟨hlast, hbefore⟩ := distinct_tables.1 (h.lookup hstep)
        exact h.put (distinct_tables.2 ⟨ih hlast hinner, hbefore⟩)
    · cases hinsert

/-- A change at the end of a way keeps what it keeps of the entries there. -/
theorem Distinct.change {f : Entries → Option Entries} (h : Distinct entries)
    (hf : ∀ {entries changed}, Distinct entries → f entries = some changed → Distinct changed)
    (hchange : Tree.change f entries way = some changed) : Distinct changed := by
  induction way generalizing entries changed with
  | nil => exact hf h hchange
  | cons step way ih =>
    rw [Tree.change] at hchange
    split at hchange
    · next hstep =>
      obtain ⟨inner, hinner, rfl⟩ := Option.map_eq_some_iff.1 hchange
      exact h.append hstep (distinct_table.2 (ih distinct_nil hinner))
    · next hstep =>
      obtain ⟨inner, hinner, rfl⟩ := Option.map_eq_some_iff.1 hchange
      exact h.put (distinct_table.2 (ih (distinct_table.1 (h.lookup hstep)) hinner))
    · next hstep =>
      obtain ⟨inner, hinner, rfl⟩ := Option.map_eq_some_iff.1 hchange
      obtain ⟨hlast, hbefore⟩ := distinct_tables.1 (h.lookup hstep)
      exact h.put (distinct_tables.2 ⟨ih hlast hinner, hbefore⟩)
    · cases hchange

theorem Distinct.openTable (h : Distinct entries)
    (hopen : Tree.openTable name entries = some changed) : Distinct changed := by
  rw [Tree.openTable] at hopen
  split at hopen
  · next hname =>
    cases hopen
    exact h.append hname (distinct_table.2 distinct_nil)
  · next hname =>
    cases hopen
    exact h.put (distinct_table.2 (distinct_table.1 (h.lookup hname)))
  · cases hopen

theorem Distinct.openNext (h : Distinct entries)
    (hopen : Tree.openNext name entries = some changed) : Distinct changed := by
  rw [Tree.openNext] at hopen
  split at hopen
  · next hname =>
    cases hopen
    exact h.append hname (distinct_tables.2 ⟨distinct_nil, fun _ h => absurd h List.not_mem_nil⟩)
  · next hname =>
    cases hopen
    obtain ⟨hlast, hbefore⟩ := distinct_tables.1 (h.lookup hname)
    exact h.put (distinct_tables.2 ⟨distinct_nil, List.forall_mem_cons.2 ⟨hlast, hbefore⟩⟩)
  · cases hopen

end Tree

/-! ## Values -/

/-- What the readers of values give with some fuel. -/
structure ReadsDistinct (dialect : Dialect) (fuel : Nat) : Prop where
  value : ∀ {depth s value rest}, readValue dialect depth fuel s = some (value, rest) →
    value.Distinct
  items : ∀ {depth s items rest}, readItems dialect depth fuel s = some (items, rest) →
    ∀ item ∈ items, item.Distinct
  members : ∀ {depth entries s found rest}, Tree.Distinct entries →
    readMembers dialect depth fuel entries s = some (found, rest) → Tree.Distinct found
  entry : ∀ {depth entries s found rest}, Tree.Distinct entries →
    readEntry dialect depth fuel entries s = some (found, rest) → Tree.Distinct found

section Values

variable {dialect : Dialect} {depth fuel : Nat} {s rest : List Char} {value : Value}
variable {entries found : Tree.Entries}

theorem distinct_of_scalar? {edition : Edition} {word : List Char}
    (h : scalar? edition word = some value) : value.Distinct := by
  unfold scalar? at h
  split at h
  · cases h
    exact .boolean true
  split at h
  · cases h
    exact .boolean false
  split at h
  · cases h
    exact .integer _
  split at h
  · cases h
    exact .float
  split at h
  · cases h
    exact Value.distinct_empty
  · cases h

theorem distinct_of_readScalar (h : readScalar dialect s = some (value, rest)) :
    value.Distinct := by
  unfold readScalar at h
  dsimp only at h
  split at h
  · split at h
    · cases h
      exact .integer _
    · cases h
  · next hscalar =>
    cases h
    exact distinct_of_scalar? hscalar
  · cases h

theorem distinct_of_readValue (h : ReadsDistinct dialect fuel)
    (hread : readValue dialect depth (fuel + 1) s = some (value, rest)) : value.Distinct := by
  unfold readValue at hread
  split at hread
  · split at hread
    · cases hread
    · obtain ⟨⟨items, _⟩, hitems, heq⟩ := Option.map_eq_some_iff.1 hread
      cases heq
      exact .array (h.items hitems)
  · split at hread
    · cases hread
    · split at hread
      · cases hread
        exact Value.distinct_empty
      · obtain ⟨⟨entries, _⟩, hmembers, heq⟩ := Option.map_eq_some_iff.1 hread
        cases heq
        exact h.members Tree.distinct_nil hmembers
  · split at hread
    · obtain ⟨_, _, heq⟩ := Option.map_eq_some_iff.1 hread
      cases heq
      exact .string _
    · exact distinct_of_readScalar hread
  · cases hread

theorem distinct_of_readItems {items : List Value} (h : ReadsDistinct dialect fuel)
    (hread : readItems dialect depth (fuel + 1) s = some (items, rest)) :
    ∀ item ∈ items, item.Distinct := by
  unfold readItems at hread
  split at hread
  · cases hread
    exact fun _ hitem => absurd hitem List.not_mem_nil
  · split at hread
    · cases hread
    · next hitem =>
      split at hread
      · obtain ⟨⟨others, _⟩, hothers, heq⟩ := Option.map_eq_some_iff.1 hread
        cases heq
        exact List.forall_mem_cons.2 ⟨h.value hitem, h.items hothers⟩
      · cases hread
        exact List.forall_mem_singleton.2 (h.value hitem)
      · cases hread

theorem distinct_of_readMembers (h : ReadsDistinct dialect fuel) (hentries : Tree.Distinct entries)
    (hread : readMembers dialect depth (fuel + 1) entries s = some (found, rest)) :
    Tree.Distinct found := by
  unfold readMembers at hread
  split at hread
  · cases hread
  · next hentry =>
    have hmore := h.entry hentries hentry
    split at hread
    · cases hread
      exact hmore
    · split at hread
      · split at hread
        · cases hread
          exact hmore
        · cases hread
      · exact h.members hmore hread
    · cases hread

theorem distinct_of_readEntry (h : ReadsDistinct dialect fuel) (hentries : Tree.Distinct entries)
    (hread : readEntry dialect depth (fuel + 1) entries s = some (found, rest)) :
    Tree.Distinct found := by
  unfold readEntry at hread
  split at hread
  · cases hread
  · split at hread
    · split at hread
      · next hvalue =>
        obtain ⟨_, hinsert, heq⟩ := Option.map_eq_some_iff.1 hread
        cases heq
        exact hentries.insert (h.value hvalue) hinsert
      · cases hread
    · cases hread

theorem readsDistinct (dialect : Dialect) (fuel : Nat) : ReadsDistinct dialect fuel := by
  induction fuel with
  | zero =>
    -- without fuel nothing is read
    constructor
    · intro depth s value rest hread
      rw [readValue] at hread
      cases hread
    · intro depth s items rest hread
      rw [readItems] at hread
      cases hread
    · intro depth entries s found rest _ hread
      rw [readMembers] at hread
      cases hread
    · intro depth entries s found rest _ hread
      rw [readEntry] at hread
      cases hread
  | succ fuel ih =>
    exact {
      value := distinct_of_readValue ih
      items := distinct_of_readItems ih
      members := distinct_of_readMembers ih
      entry := distinct_of_readEntry ih }

end Values

/-! ## Lines -/

namespace Document

variable {dialect : Dialect} {document next : Document} {s rest : List Char}

theorem distinct_of_openHeader {several : Bool} {way : List String} {name : String}
    (h : Tree.Distinct document.root)
    (hopen : document.openHeader several way name = some next) : Tree.Distinct next.root := by
  unfold openHeader at hopen
  obtain ⟨root, hchange, rfl⟩ := Option.map_eq_some_iff.1 hopen
  refine h.change (fun {entries changed} hentries hopened => ?_) hchange
  split at hopened
  · exact hentries.openNext hopened
  · exact hentries.openTable hopened

theorem distinct_of_readHeader (h : Tree.Distinct document.root)
    (hread : document.readHeader dialect s = some (next, rest)) : Tree.Distinct next.root := by
  unfold readHeader at hread
  dsimp only at hread
  split at hread
  · split at hread
    · next hopen =>
      cases hread
      exact distinct_of_openHeader h hopen
    · cases hread
  · cases hread

theorem distinct_of_readEntry (h : Tree.Distinct document.root)
    (hread : document.readEntry dialect s = some (next, rest)) : Tree.Distinct next.root := by
  unfold Document.readEntry at hread
  split at hread
  · split at hread
    · next hvalue =>
      obtain ⟨root, hchange, heq⟩ := Option.map_eq_some_iff.1 hread
      cases heq
      have hdistinct := (readsDistinct dialect _).value hvalue
      exact h.change (fun hentries hinsert => hentries.insert hdistinct hinsert) hchange
    · cases hread
  · cases hread

/-- A line says no name twice. -/
theorem distinct_of_readLine (h : Tree.Distinct document.root)
    (hread : document.readLine dialect s = some (next, rest)) : Tree.Distinct next.root := by
  unfold readLine at hread
  split at hread
  · cases hread
    exact h
  · split at hread
    · cases hread
      exact h
    · split at hread
      · exact distinct_of_readHeader h hread
      · exact distinct_of_readEntry h hread

/-- Lines say no name twice. -/
theorem distinct_of_readLines {fuel : Nat} (h : Tree.Distinct document.root)
    (hread : readLines dialect fuel document s = some next) : Tree.Distinct next.root := by
  induction fuel generalizing document s with
  | zero => cases hread
  | succ fuel ih =>
    rw [readLines] at hread
    split at hread
    · cases hread
    · next hline =>
      have hmore := distinct_of_readLine h hline
      split at hread
      · cases hread
        exact hmore
      · split at hread
        · exact ih hmore hread
        · cases hread

end Document

/-- In the table of a document each name stands once, at every depth. -/
theorem distinct_of_read? {dialect : Dialect} {text : String} {entries : Config.Entries}
    (h : read? dialect text = some entries) : (Value.table entries).Distinct := by
  unfold read? at h
  obtain ⟨document, hlines, rfl⟩ := Option.map_eq_some_iff.1 h
  exact Document.distinct_of_readLines Tree.distinct_nil hlines

end NeighborSearch.Toml
