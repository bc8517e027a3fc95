import NeighborSearch.Config.Variable
import NeighborSearch.Proofs.Named

/-!
# Names that stand once

What a name of a table stands for is clear as long as no name stands twice. `Distinct` says that this
is so in every table of a value. Putting layers over each other keeps it, and the layer of the
variables of an environment has it.
-/

namespace NeighborSearch

namespace Named

variable {α : Type} {entries : List (String × α)} {name : String} {value : α}

theorem eq_or_mem_of_mem_put {entry : String × α} (h : entry ∈ put entries name value) :
    entry = (name, value) ∨ entry ∈ entries := by
  induction entries with
  | nil => exact .inl (List.mem_singleton.1 h)
  | cons head rest ih =>
    rw [put] at h
    split at h
    · exact (List.mem_cons.1 h).imp_right (List.mem_cons_of_mem head)
    · obtain rfl | h := List.mem_cons.1 h
      · exact .inr List.mem_cons_self
      · exact (ih h).imp_right (List.mem_cons_of_mem head)

/-- Names that stand once go on doing so when a value is put under a name. -/
theorem nodup_put (h : (entries.map Prod.fst).Nodup) :
    ((put entries name value).map Prod.fst).Nodup := by
  induction entries with
  | nil => exact List.nodup_singleton name
  | cons head rest ih =>
    obtain ⟨hfresh, hrest⟩ := List.nodup_cons.1 h
    rw [put]
    split
    · next hhead =>
      rw [hhead] at hfresh
      exact List.nodup_cons.2 ⟨hfresh, hrest⟩
    · next hhead =>
      refine List.nodup_cons.2 ⟨?_, ih hrest⟩
      rw [← lookup_eq_none] at hfresh ⊢
      rw [lookup_put, if_neg hhead]
      exact hfresh

/-- So do they when an entry with another name is added. -/
theorem nodup_append (h : (entries.map Prod.fst).Nodup) (hname : entries.lookup name = none) :
    ((entries ++ [(name, value)]).map Prod.fst).Nodup := by
  rw [List.map_append]
  refine List.nodup_append.2 ⟨h, List.nodup_singleton name, ?_⟩
  rintro other hother _ hsingle rfl
  obtain rfl : other = name := List.mem_singleton.1 hsingle
  exact lookup_eq_none.1 hname hother

theorem mem_of_lookup (h : entries.lookup name = some value) : (name, value) ∈ entries := by
  induction entries with
  | nil => cases h
  | cons head rest ih =>
    obtain ⟨other, found⟩ := head
    rw [List.lookup_cons] at h
    by_cases hother : name = other
    · rw [hother, beq_self_eq_true] at h
      cases h
      rw [hother]
      exact List.mem_cons_self
    · rw [beq_eq_false_iff_ne.2 hother] at h
      exact List.mem_cons_of_mem _ (ih h)

end Named

namespace Config

/-! ## Values -/

namespace Value

/-- No name stands twice in a table of a value. -/
inductive Distinct : Value → Prop where
  | string (s : String) : Distinct (.string s)
  | integer (n : Int) : Distinct (.integer n)
  | float : Distinct .float
  | boolean (b : Bool) : Distinct (.boolean b)
  | array {items : List Value} (items_distinct : ∀ item ∈ items, Distinct item) :
      Distinct (.array items)
  | table {entries : Entries} (names : (entries.map Prod.fst).Nodup)
      (values : ∀ entry ∈ entries, Distinct entry.2) : Distinct (.table entries)

variable {entries : Entries} {items : List Value} {name : String} {value : Value}

theorem distinct_array_iff : (array items).Distinct ↔ ∀ item ∈ items, item.Distinct :=
  ⟨fun | .array h => h, .array⟩

theorem distinct_table_iff :
    (table entries).Distinct
      ↔ (entries.map Prod.fst).Nodup ∧ ∀ entry ∈ entries, entry.2.Distinct :=
  ⟨fun | .table names values => ⟨names, values⟩, fun h => .table h.1 h.2⟩

theorem distinct_empty : (table []).Distinct :=
  .table List.nodup_nil fun _ h => absurd h List.not_mem_nil

theorem Distinct.names (h : (Value.table entries).Distinct) : (entries.map Prod.fst).Nodup :=
  (distinct_table_iff.1 h).1

theorem Distinct.lookup (h : (Value.table entries).Distinct) (hvalue : entries.lookup name = some value) :
    value.Distinct :=
  (distinct_table_iff.1 h).2 _ (Named.mem_of_lookup hvalue)

theorem Distinct.put (h : (Value.table entries).Distinct) (hvalue : value.Distinct) :
    (Value.table (Named.put entries name value)).Distinct := by
  refine .table (Named.nodup_put h.names) fun entry hentry => ?_
  obtain rfl | hentry := Named.eq_or_mem_of_mem_put hentry
  · exact hvalue
  · exact (distinct_table_iff.1 h).2 entry hentry

theorem Distinct.append (h : (Value.table entries).Distinct) (hname : entries.lookup name = none)
    (hvalue : value.Distinct) : (Value.table (entries ++ [(name, value)])).Distinct := by
  refine .table (Named.nodup_append h.names hname) fun entry hentry => ?_
  obtain hentry | hentry := List.mem_append.1 hentry
  · exact (distinct_table_iff.1 h).2 entry hentry
  · rw [List.mem_singleton.1 hentry]
    exact hvalue

/-! ## Layers -/

/-- Entries are put over a layer one by one. -/
theorem distinct_join_of {upper lower : Entries}
    (hupper : ∀ entry ∈ upper, entry.2.Distinct
      ∧ ∀ below : Value, below.Distinct → (entry.2.over below).Distinct)
    (hlower : (table lower).Distinct) : (table (join upper lower)).Distinct := by
  induction upper generalizing lower with
  | nil => rwa [join]
  | cons entry rest ih =>
    obtain ⟨hentry, hrest⟩ := List.forall_mem_cons.1 hupper
    rw [join]
    refine ih hrest (hlower.put ?_)
    split
    · next below hbelow => exact hentry.2 below (hlower.lookup hbelow)
    · exact hentry.1

/-- A layer over another one says each name once if both do. -/
theorem Distinct.over {upper : Value} (h : upper.Distinct) {lower : Value}
    (hlower : lower.Distinct) : (upper.over lower).Distinct := by
  induction h generalizing lower with
  | table names values ih =>
    cases hlower with
    | table lowerNames lowerValues =>
      rw [Value.over]
      exact distinct_join_of (fun entry hentry => ⟨values entry hentry, fun _ => ih entry hentry⟩)
        (.table lowerNames lowerValues)
    | _ => exact .table names values
  | array hitems => cases hlower <;> exact .array hitems
  | string s => cases hlower <;> exact .string s
  | integer n => cases hlower <;> exact .integer n
  | float => cases hlower <;> exact .float
  | boolean b => cases hlower <;> exact .boolean b

theorem Distinct.nest (h : value.Distinct) (way : List String) :
    (Config.nest way value).Distinct := by
  induction way with
  | nil => exact h
  | cons name way ih =>
    refine .table (List.nodup_singleton name) fun entry hentry => ?_
    rw [List.mem_singleton.1 hentry]
    exact ih

end Value

/-! ## Variables -/

namespace Variable

/-- What the readers of contents give with some fuel. -/
structure ReadsDistinct (fuel : Nat) : Prop where
  value : ∀ {s value rest}, readValue fuel s = some (value, rest) → value.Distinct
  next : ∀ {s value rest}, readNext fuel s = some (value, rest) → value.Distinct
  items : ∀ {s items rest}, readItems fuel s = some (items, rest) → ∀ item ∈ items, item.Distinct
  members : ∀ {entries s found rest}, (Value.table entries).Distinct →
    readMembers fuel entries s = some (found, rest) → (Value.table found).Distinct
  member : ∀ {s key value rest}, readMember fuel s = some (key, value, rest) → value.Distinct

section

variable {fuel : Nat} {s rest : List Char} {value : Value}

theorem distinct_plain (word : List Char) : (plain word).Distinct := by
  unfold plain
  split
  · exact .float
  · split
    · exact .integer _
    · exact .string _

theorem distinct_of_readValue (h : ReadsDistinct fuel)
    (hread : readValue (fuel + 1) s = some (value, rest)) : value.Distinct := by
  rw [readValue] at hread
  split at hread
  · next hnext =>
    cases hread
    exact h.next hnext
  · cases hread

theorem distinct_of_readNext (h : ReadsDistinct fuel)
    (hread : readNext (fuel + 1) s = some (value, rest)) : value.Distinct := by
  unfold readNext at hread
  split at hread
  · cases hread
  · cases hread
    exact .boolean true
  · cases hread
    exact .boolean false
  · obtain ⟨⟨items, _⟩, hitems, hvalue⟩ := Option.map_eq_some_iff.1 hread
    cases hvalue
    cases ‹fuel + 1 = _›
    exact .array (h.items hitems)
  · obtain ⟨⟨entries, _⟩, hmembers, hvalue⟩ := Option.map_eq_some_iff.1 hread
    cases hvalue
    cases ‹fuel + 1 = _›
    exact h.members Value.distinct_empty hmembers
  · obtain ⟨_, _, hvalue⟩ := Option.map_eq_some_iff.1 hread
    cases hvalue
    exact .string _
  · cases hread
    exact .string _
  · cases hread
  · cases hread
    exact distinct_plain _

theorem distinct_of_readItems {items : List Value} (h : ReadsDistinct fuel)
    (hread : readItems (fuel + 1) s = some (items, rest)) : ∀ item ∈ items, item.Distinct := by
  unfold readItems at hread
  split at hread
  · cases hread
  · cases hread
    exact fun _ hitem => absurd hitem List.not_mem_nil
  · cases ‹fuel + 1 = _›
    split at hread
    · next item _ hitem =>
      obtain ⟨⟨others, _⟩, hothers, hvalue⟩ := Option.map_eq_some_iff.1 hread
      cases hvalue
      exact List.forall_mem_cons.2 ⟨h.value hitem, h.items hothers⟩
    · next item _ hitem =>
      cases hread
      exact List.forall_mem_singleton.2 (h.value hitem)
    · cases hread

theorem distinct_of_readMembers {entries found : Entries} (h : ReadsDistinct fuel)
    (hentries : (Value.table entries).Distinct)
    (hread : readMembers (fuel + 1) entries s = some (found, rest)) :
    (Value.table found).Distinct := by
  unfold readMembers at hread
  split at hread
  · cases hread
  · cases hread
    exact hentries
  · cases ‹fuel + 1 = _›
    split at hread
    · next hmember => exact h.members (hentries.put (h.member hmember)) hread
    · next hmember =>
      cases hread
      exact hentries.put (h.member hmember)
    · cases hread

theorem distinct_of_readMember {key : String} (h : ReadsDistinct fuel)
    (hread : readMember (fuel + 1) s = some (key, value, rest)) : value.Distinct := by
  rw [readMember] at hread
  split at hread
  · cases hread
  · split at hread
    · obtain ⟨⟨found, _⟩, hvalue, heq⟩ := Option.map_eq_some_iff.1 hread
      cases heq
      exact h.value hvalue
    · cases hread

end

theorem readsDistinct (fuel : Nat) : ReadsDistinct fuel := by
  induction fuel with
  | zero => constructor <;> intros <;> contradiction
  | succ fuel ih =>
    exact {
      value := distinct_of_readValue ih
      next := distinct_of_readNext ih
      items := distinct_of_readItems ih
      members := distinct_of_readMembers ih
      member := distinct_of_readMember ih }

/-- In the value of a content each name stands once. -/
theorem distinct_content (text : String) : (content text).Distinct := by
  unfold content
  split
  · next hread => exact (readsDistinct _).value hread
  · exact .string text

/-! ## Environments -/

section

variable {word name : String} {way : List String} {entries : Entries}

/-- A way has at least one name. -/
theorem way?_ne_nil (h : way? word name = some way) : way ≠ [] := by
  unfold way? at h
  split at h
  · cases h
  · dsimp only at h
    split at h
    · cases h
    · cases h
      exact mt List.map_eq_nil_iff.1 (Text.splitOn_ne_nil _ _)

/-- A layer with one more variable. -/
def add (word : String) (entries : Entries) (entry : String × String) : Entries :=
  match way? word entry.1 with
  | none => entries
  | some way =>
    match nest way (content entry.2) with
    | .table upper => join upper entries
    | _ => entries

theorem layer_eq_foldl (word : String) (environment : List (String × String)) :
    layer word environment = environment.foldl (add word) [] := rfl

theorem add_of_none {entry : String × String} (h : way? word entry.1 = none) :
    add word entries entry = entries := by
  rw [add, h]

/-- A variable puts a table with nothing but its value over the layer. -/
theorem table_add {entry : String × String} (h : way? word entry.1 = some way) :
    Value.table (add word entries entry) = (nest way (content entry.2)).over (.table entries) := by
  obtain ⟨step, steps, rfl⟩ := List.exists_cons_of_ne_nil (way?_ne_nil h)
  rw [add, h, nest, Value.over]
  rfl

/-- In the layer that the variables of an environment say together each name stands once. -/
theorem distinct_layer (word : String) (environment : List (String × String)) :
    (Value.table (layer word environment)).Distinct := by
  suffices h : ∀ entries : Entries, (Value.table entries).Distinct →
      (Value.table (environment.foldl (add word) entries)).Distinct from
    h [] Value.distinct_empty
  intro entries hentries
  induction environment generalizing entries with
  | nil => exact hentries
  | cons entry environment ih =>
    refine ih _ ?_
    cases hway : way? word entry.1 with
    | none => rwa [add_of_none hway]
    | some way =>
      rw [table_add hway]
      exact ((distinct_content entry.2).nest way).over hentries

end

end Variable

end Config

end NeighborSearch
