import Mathlib.Data.List.Induction
import NeighborSearch.Proofs.Config.Names
import NeighborSearch.Proofs.Settings.Table

/-!
# What stands at the end of a way

A way of names leads through tables to a value. This module says what it leads to once a layer was
put over another one, and in the layer of the variables of an environment.

* `Value.at?` is what stands at the end of a way, and `Value.IsOpen` says that nothing but tables
  stands on it before its end.
* Ways that part from each other do not disturb each other. Where ways only meet at their ends, the
  upper layer has what it says itself and else what the lower one says.
-/

namespace NeighborSearch.Config

namespace Value

/-- The entries of a table. Other values have none. -/
def entries : Value → Entries
  | table entries => entries
  | _ => []

/-- What stands at the end of a way. -/
def at? (value : Value) : (way : List String) → Option Value
  | [] => some value
  | name :: way => (value.entries.lookup name).bind fun inner => inner.at? way

/-- Whether all values on a way are tables. The one at its end need not be one. -/
def IsOpen (value : Value) : (way : List String) → Prop
  | [] => True
  | name :: way =>
    (∃ entries, value = table entries)
      ∧ ∀ inner, value.entries.lookup name = some inner → inner.IsOpen way

/-- A value with the entries left out. -/
def shut : Value → Value
  | table _ => table []
  | value => value

/-- A value put over the one below it, if there is one. -/
def onto (value : Value) (below : Option Value) : Value :=
  below.elim value value.over

variable {value upper lower : Value} {name : String} {way other : List String}
variable {below : Option Value}

theorem at?_cons :
    value.at? (name :: way) = (value.entries.lookup name).bind fun inner => inner.at? way := rfl

theorem isOpen_empty : (table []).IsOpen way := by
  cases way with
  | nil => trivial
  | cons name way => exact ⟨⟨[], rfl⟩, fun inner h => nomatch h⟩

/-- What a value is put over makes no difference to anything but the entries of a table. -/
theorem shut_over : (upper.over lower).shut = upper.shut := by
  cases upper with
  | table entries =>
    cases lower with
    | table below => rw [Value.over]; rfl
    | _ => rfl
  | _ => cases lower <;> rfl

/-! ## One value over a layer -/

/-- The entries below, and the value of the first name put over what it stands for there. -/
theorem nest_cons_onto :
    (nest (name :: way) value).onto below
      = table (Named.put (below.elim [] entries) name
          ((nest way value).onto ((below.elim [] entries).lookup name))) := by
  cases below with
  | none => rfl
  | some below =>
    cases below with
    | table entries =>
      show (table [(name, nest way value)]).over (table entries) = _
      rw [Value.over, join, join, Option.elim_some, Value.entries, onto]
      cases entries.lookup name <;> rfl
    | _ => rfl

/-- A value stands at the end of its way if nothing stood there. -/
theorem at?_nest_onto_self (below : Option Value)
    (h : (below.bind fun value => value.at? way) = none) :
    ((nest way value).onto below).at? way = some value := by
  induction way generalizing below with
  | nil =>
    cases below with
    | none => rfl
    | some below => cases h
  | cons name way ih =>
    rw [nest_cons_onto, at?_cons, entries, Named.lookup_put, if_pos rfl, Option.bind_some]
    refine ih _ ?_
    cases below with
    | none => rfl
    | some below => exact h

/-- At the end of a way that parts from the one of a value stands what stood there before. -/
theorem at?_nest_onto_of_parts (below : Option Value) (hway : ¬way <+: other)
    (hother : ¬other <+: way) :
    ((nest way value).onto below).at? other = below.bind fun value => value.at? other := by
  induction way generalizing below other with
  | nil => exact absurd List.nil_prefix hway
  | cons name way ih =>
    cases other with
    | nil => exact absurd List.nil_prefix hother
    | cons step other =>
      have hbelow : (below.bind fun value => value.at? (step :: other))
          = ((below.elim [] entries).lookup step).bind fun inner => inner.at? other := by
        cases below <;> rfl
      rw [hbelow, nest_cons_onto, at?_cons, entries, Named.lookup_put]
      by_cases hstep : step = name
      · subst hstep
        rw [if_pos rfl, Option.bind_some]
        exact ih _ (fun h => hway (List.cons_prefix_cons.2 ⟨rfl, h⟩))
          fun h => hother (List.cons_prefix_cons.2 ⟨rfl, h⟩)
      · rw [if_neg hstep]

/-- A way stays open as long as no value is put on it before its end. -/
theorem isOpen_nest_onto (below : Option Value) (hbelow : ∀ value ∈ below, value.IsOpen other)
    (h : way <+: other → way = other) : ((nest way value).onto below).IsOpen other := by
  induction way generalizing below other with
  | nil =>
    rw [← h List.nil_prefix]
    trivial
  | cons name way ih =>
    cases other with
    | nil => trivial
    | cons step other =>
      have hinner : ∀ inner, (below.elim [] entries).lookup step = some inner →
          inner.IsOpen other := by
        intro inner hinner
        cases below with
        | none => cases hinner
        | some below => exact (hbelow below rfl).2 inner hinner
      rw [nest_cons_onto]
      refine ⟨⟨_, rfl⟩, fun inner hlookup => ?_⟩
      rw [entries, Named.lookup_put] at hlookup
      by_cases hstep : step = name
      · subst hstep
        rw [if_pos rfl] at hlookup
        cases hlookup
        refine ih _ hinner fun hleads => ?_
        exact (List.cons.inj (h (List.cons_prefix_cons.2 ⟨rfl, hleads⟩))).2
      · rw [if_neg hstep] at hlookup
        exact hinner inner hlookup

/-! ## Layers over layers -/

/-- The value of a name in a layer over another one. -/
theorem lookup_over {upper lower : Entries} (h : (table upper).Distinct) (name : String) :
    ((table upper).over (table lower)).entries.lookup name
      = ((upper.lookup name).map fun value => value.onto (lower.lookup name)).or
          (lower.lookup name) := by
  rw [Value.over, entries, lookup_join h.names]
  cases upper.lookup name <;> rfl

theorem IsOpen.over (hupper : upper.IsOpen way) (hlower : lower.IsOpen way)
    (hdistinct : upper.Distinct) : (upper.over lower).IsOpen way := by
  induction way generalizing upper lower with
  | nil => trivial
  | cons name way ih =>
    obtain ⟨⟨upperEntries, rfl⟩, hupper⟩ := hupper
    obtain ⟨⟨lowerEntries, rfl⟩, hlower⟩ := hlower
    rw [IsOpen, lookup_over hdistinct]
    refine ⟨⟨_, by rw [Value.over]⟩, fun inner hinner => ?_⟩
    cases hname : upperEntries.lookup name with
    | none =>
      rw [hname] at hinner
      exact hlower inner hinner
    | some found =>
      rw [hname] at hinner
      cases hinner
      have hfound := hupper found hname
      cases hbelow : lowerEntries.lookup name with
      | none => exact hfound
      | some below => exact ih hfound (hlower below hbelow) (hdistinct.lookup hname)

/-- At the end of a way that is open in both layers stands what the upper layer says there, and what
the lower one says if the upper one says nothing. Only where tables stand at its end are these put
together. -/
theorem at?_over (hupper : upper.IsOpen way) (hlower : lower.IsOpen way)
    (hdistinct : upper.Distinct) :
    ((upper.over lower).at? way).map shut = ((upper.at? way).or (lower.at? way)).map shut := by
  induction way generalizing upper lower with
  | nil => exact congrArg some shut_over
  | cons name way ih =>
    obtain ⟨⟨upperEntries, rfl⟩, hupper⟩ := hupper
    obtain ⟨⟨lowerEntries, rfl⟩, hlower⟩ := hlower
    rw [at?_cons, at?_cons, at?_cons, lookup_over hdistinct]
    cases hname : upperEntries.lookup name with
    | none => rw [entries, entries, hname]; rfl
    | some found =>
      rw [entries, entries, hname]
      cases hbelow : lowerEntries.lookup name with
      | none =>
        show (found.at? way).map shut = ((found.at? way).or none).map shut
        rw [Option.or_none]
      | some below =>
        exact ih (hupper found hname) (hlower below hbelow) (hdistinct.lookup hname)

end Value

/-! ## Variables -/

namespace Variable

/-- The ways of the variables that say values. -/
def ways (word : String) (environment : List (String × String)) : List (List String) :=
  environment.filterMap fun entry => way? word entry.1

/-- What the first variable with a way says. -/
def said? (word : String) (environment : List (String × String)) (way : List String) :
    Option Value :=
  environment.findSome? fun entry =>
    if way? word entry.1 = some way then some (content entry.2) else none

section

variable {word : String} {environment : List (String × String)} {way : List String}

theorem said?_eq_none (h : way ∉ ways word environment) : said? word environment way = none := by
  refine List.findSome?_eq_none_iff.2 fun entry hentry => ?_
  exact if_neg fun hway => h (List.mem_filterMap.2 ⟨entry, hentry, hway⟩)

theorem layer_append (entry : String × String) :
    layer word (environment ++ [entry]) = add word (layer word environment) entry := by
  rw [layer_eq_foldl, layer_eq_foldl, List.foldl_append, List.foldl_cons, List.foldl_nil]

/-- A way is open in the layer of an environment that says nothing on it before its end. -/
theorem isOpen_layer (h : ∀ other ∈ ways word environment, other <+: way → other = way) :
    (Value.table (layer word environment)).IsOpen way := by
  induction environment using List.reverseRecOn with
  | nil => exact Value.isOpen_empty
  | append_singleton environment entry ih =>
    rw [ways, List.filterMap_append, List.forall_mem_append] at h
    have hopen := ih h.1
    rw [layer_append]
    cases hway : way? word entry.1 with
    | none => rwa [add_of_none hway]
    | some other =>
      rw [table_add hway]
      refine Value.isOpen_nest_onto (some _) ?_
        (h.2 other (List.mem_filterMap.2 ⟨entry, List.mem_singleton_self entry, hway⟩))
      rintro _ ⟨⟩
      exact hopen

/-- In the layer of an environment stands at the end of a way what the variable with this way says,
if no two variables have one way and none has a way that leads through or beyond this one. -/
theorem at?_layer (hway : way ≠ []) (hnodup : (ways word environment).Nodup)
    (h : ∀ other ∈ ways word environment, other <+: way ∨ way <+: other → other = way) :
    (Value.table (layer word environment)).at? way = said? word environment way := by
  induction environment using List.reverseRecOn with
  | nil =>
    obtain ⟨name, way, rfl⟩ := List.exists_cons_of_ne_nil hway
    rfl
  | append_singleton environment entry ih =>
    rw [ways, List.filterMap_append] at hnodup h
    rw [List.forall_mem_append] at h
    have hbefore := ih hnodup.of_append_left h.1
    rw [layer_append, said?, List.findSome?_append]
    change _ = (said? word environment way).or _
    rw [List.findSome?_singleton]
    cases hentry : way? word entry.1 with
    | none =>
      rw [add_of_none hentry, hbefore, if_neg (by simp), Option.or_none]
    | some other =>
      have hother : other ∈ [entry].filterMap fun entry => way? word entry.1 :=
        List.mem_filterMap.2 ⟨entry, List.mem_singleton_self entry, hentry⟩
      rw [table_add hentry]
      by_cases heq : other = way
      · -- nobody said anything at the end of this way before
        subst heq
        have hfresh : other ∉ ways word environment := fun hmem =>
          List.disjoint_of_nodup_append hnodup hmem hother
        rw [said?_eq_none hfresh] at hbefore ⊢
        rw [if_pos rfl, Option.none_or]
        exact Value.at?_nest_onto_self (some _) hbefore
      · rw [if_neg fun hsome => heq (Option.some.inj hsome), Option.or_none, ← hbefore]
        exact Value.at?_nest_onto_of_parts (some _)
          (fun hleads => heq (h.2 other hother (.inl hleads)))
          fun hleads => heq (h.2 other hother (.inr hleads))

end

end Variable

end NeighborSearch.Config
