import NeighborSearch.Json.Forms
import NeighborSearch.Proofs.Json.Grammar
import NeighborSearch.Proofs.Json.Records

/-!
# Embeddings without components

An embedding that is made of values has a component, and scaling keeps their number, so its number
of components is a dimension. Reading does not look at that number: a text that says an empty array
is read as an embedding without components. No other text is.
-/

namespace NeighborSearch

/-! ## Empty arrays -/

namespace RawJson

/-- The text of an empty array: two brackets, with nothing but blanks around and between them. -/
def IsEmptyArray (text : List Char) : Prop :=
  ∃ before inside after, IsGap before ∧ IsGap inside ∧ IsGap after
    ∧ text = before ++ '[' :: (inside ++ ']' :: after)

theorem skipBlanks_eq_nil_iff {s : List Char} : skipBlanks s = [] ↔ IsGap s :=
  List.dropWhile_eq_nil_iff

/-- What is left of a text stands behind blanks. -/
theorem exists_gap (s : List Char) : ∃ gap, IsGap gap ∧ s = gap ++ skipBlanks s :=
  ⟨s.takeWhile isBlank, fun _ hc => List.mem_takeWhile_imp hc, List.takeWhile_append_dropWhile.symm⟩

/-- The items of an array are read one by one, so there is at least one. -/
theorem ne_nil_of_scanItems {fuel : Nat} {s rest : List Char} {items : List RawJson}
    (h : scanItems fuel s = some (items, rest)) : items ≠ [] := by
  cases fuel with
  | zero => cases h
  | succ fuel =>
    rw [scanItems] at h
    split at h
    · cases h
    · split at h
      · cases h
        exact List.cons_ne_nil _ _
      · obtain ⟨_, _, hitems⟩ := Option.map_eq_some_iff.1 h
        cases hitems
        exact List.cons_ne_nil _ _
      · cases h

/-- An empty array is read from two brackets with blanks between them. -/
theorem brackets_of_scanValue {fuel : Nat} {s rest : List Char}
    (h : scanValue fuel s = some (.array [], rest)) :
    ∃ before inside, IsGap before ∧ IsGap inside ∧ s = before ++ '[' :: (inside ++ ']' :: rest) := by
  cases fuel with
  | zero => cases h
  | succ fuel =>
    obtain ⟨before, hbefore, hs⟩ := exists_gap s
    rw [scanValue] at h
    split at h
    · obtain ⟨_, _, hvalue⟩ := Option.map_eq_some_iff.1 h
      cases hvalue
    · next tail hopen =>
      obtain ⟨inside, hinside, htail⟩ := exists_gap tail
      split at h
      · next hclose =>
        cases h
        refine ⟨before, inside, hbefore, hinside, ?_⟩
        rw [← hclose, ← htail, ← hopen, ← hs]
      · obtain ⟨⟨items, _⟩, hitems, hvalue⟩ := Option.map_eq_some_iff.1 h
        cases hvalue
        exact absurd rfl (ne_nil_of_scanItems hitems)
    · split at h
      · cases h
      · obtain ⟨_, _, hvalue⟩ := Option.map_eq_some_iff.1 h
        cases hvalue
    · split at h
      · obtain ⟨_, _, hvalue⟩ := Option.map_eq_some_iff.1 h
        cases hvalue
      · unfold scanWord at h
        split at h <;> cases h
    · cases h

theorem parse?_eq_emptyArray_iff {text : String} :
    parse? text = some (.array []) ↔ IsEmptyArray text.toList := by
  rw [parse?]
  constructor
  · intro h
    split at h
    · next value rest hscan =>
      split at h
      · next hrest =>
        cases h
        obtain ⟨before, inside, hbefore, hinside, htext⟩ := brackets_of_scanValue hscan
        exact ⟨before, inside, rest, hbefore, hinside, skipBlanks_eq_nil_iff.1 hrest, htext⟩
      · cases h
    · cases h
  · rintro ⟨before, inside, after, hbefore, hinside, hafter, htext⟩
    have hscan : scanValue (3 * text.length + 3) text.toList = some (.array [], after) := by
      rw [htext, ← scanValue_skipBlanks, skipBlanks_gap hbefore rfl, scanValue_bracket,
        skipBlanks_gap hinside rfl]
      rfl
    rw [hscan]
    exact if_pos (skipBlanks_eq_nil_iff.2 hafter)

end RawJson

/-! ## Numbers of components -/

theorem Dimension.toNat_of_ofNat {n : Nat} {d : Dimension} (h : ofNat n = .ok d) : d.toNat = n := by
  rw [ofNat] at h
  split at h
  · cases h
    rfl
  · cases h

namespace Embedding

/-- The embedding that a text holds. -/
def ofText? (text : String) : Option Embedding :=
  (RawJson.parse? text).bind ofJson?

/-- The embeddings that come of values and of texts of some kind, and of these by scaling. -/
inductive Made (texts : String → Prop) : Embedding → Prop where
  | values {values : List Float32} {e : Embedding} (h : ofValues values = .ok e) : Made texts e
  | text {text : String} {e : Embedding} (admitted : texts text) (h : ofText? text = some e) :
      Made texts e
  | normalized {e : Embedding} (h : Made texts e) : Made texts e.normalized

section

variable {e : Embedding}

/-- The number of components is a dimension exactly if there is a component. -/
theorem exists_dimension_iff :
    (∃ d, Dimension.ofNat e.dimension = .ok d ∧ d.toNat = e.dimension) ↔ e.values ≠ [] := by
  rw [dimension, Dimension.ofNat, ← List.length_pos_iff]
  constructor
  · rintro ⟨d, hd, -⟩
    by_contra hnot
    rw [dif_neg hnot] at hd
    cases hd
  · intro hpos
    exact ⟨⟨_, hpos⟩, dif_pos hpos, rfl⟩

theorem values_ne_nil_of_ofValues {values : List Float32} (h : ofValues values = .ok e) :
    e.values ≠ [] := by
  rw [ofValues] at h
  split at h
  · next d hd =>
    cases h
    exact exists_dimension_iff.1 ⟨d, hd, Dimension.toNat_of_ofNat hd⟩
  · cases h

theorem values_ne_nil_normalized (h : e.values ≠ []) : e.normalized.values ≠ [] := by
  rw [← List.length_pos_iff] at h ⊢
  rwa [e.length_normalized]

/-- An embedding without components is read from an empty array, and from nothing else. -/
theorem ofText?_eq_empty_iff {text : String} :
    ofText? text = some ⟨[]⟩ ↔ RawJson.IsEmptyArray text.toList := by
  rw [ofText?, ← RawJson.parse?_eq_emptyArray_iff, Option.bind_eq_some_iff]
  constructor
  · rintro ⟨value, hvalue, hread⟩
    rw [hvalue]
    obtain ⟨components, hcomponents, hnone⟩ := Option.map_eq_some_iff.1 hread
    cases hnone
    cases value with
    | array items =>
      have hitems := RawJson.mapM_eq_some_iff.1 hcomponents
      rw [List.forall₂_nil_right_iff.1 hitems]
    | _ => cases hcomponents
  · exact fun hvalue => ⟨.array [], hvalue, rfl⟩

end

/-- The number of components of every embedding is a dimension exactly as long as no embedding is
read from the text of an empty array. -/
theorem dimension_of_made (texts : String → Prop) :
    (∀ e, Made texts e → ∃ d, Dimension.ofNat e.dimension = .ok d ∧ d.toNat = e.dimension)
      ↔ ∀ text, texts text → ¬RawJson.IsEmptyArray text.toList := by
  constructor
  · intro hall text htext hempty
    exact exists_dimension_iff.1 (hall ⟨[]⟩ (.text htext (ofText?_eq_empty_iff.2 hempty))) rfl
  · intro hnone e he
    rw [exists_dimension_iff]
    induction he with
    | values h => exact values_ne_nil_of_ofValues h
    | text htext h =>
      intro hempty
      refine hnone _ htext (ofText?_eq_empty_iff.1 ?_)
      rw [h, ← hempty]
    | normalized _ ih => exact values_ne_nil_normalized ih

/-- Two brackets are read as an embedding whose number of components is no dimension. -/
theorem dimension_of_emptyArray :
    ∃ e, Made (fun _ => True) e ∧ ofText? "[]" = some e
      ∧ Dimension.ofNat e.dimension
        = .error (.invalidArgument "Vector dimension cannot be zero") := by
  have hread : ofText? "[]" = some ⟨[]⟩ := rfl
  exact ⟨⟨[]⟩, .text trivial hread, hread, rfl⟩

end Embedding

end NeighborSearch
