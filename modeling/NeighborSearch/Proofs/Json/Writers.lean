import NeighborSearch.Proofs.Json.Grammar

/-!
# Reading back what was written

`toRaw` is the raw form of a value: its strings escaped, its numbers as numerals. The compact and
the pretty text both spell it, so both are read as it. Nothing is lost on the way but the numbers
that are written as `null`.
-/

namespace NeighborSearch

open RawJson (Spells IsGap)

namespace Json

def Number.toRaw (n : Number) : RawJson :=
  match n.numeral? with
  | some n => .number n
  | none => .null

mutual

/-- The raw form of a value. -/
def toRaw : Json → RawJson
  | null => .null
  | bool b => .bool b
  | number n => n.toRaw
  | string s => .string (escape s.toList)
  | array items => .array (rawItems items)
  | object members => .object (rawMembers members)

def rawItems : List Json → List RawJson
  | [] => []
  | item :: rest => item.toRaw :: rawItems rest

def rawMembers : List (String × Json) → List (List Char × RawJson)
  | [] => []
  | (name, value) :: rest => (escape name.toList, value.toRaw) :: rawMembers rest

end

theorem rawItems_eq_map (items : List Json) : rawItems items = items.map toRaw := by
  induction items with
  | nil => rw [rawItems, List.map_nil]
  | cons item rest ih => rw [rawItems, ih, List.map_cons]

/-! ## What the writers spell -/

theorem spells_number (n : Number) : Spells (.value n.toRaw) n.text := by
  rw [Number.text_eq, Number.toRaw]
  cases h : n.numeral? with
  | none => exact .null
  | some numeral => exact .number (Number.valid_of_numeral? h)

theorem spells_quote (s : String) : Spells (.value (.string (escape s.toList))) (quote s) := by
  have htext := quote_append s []
  rw [List.append_nil] at htext
  rw [htext]
  exact .string s.toList

theorem isGap_nil : IsGap [] := fun _ h => absurd h List.not_mem_nil

mutual

theorem spells_compact : (value : Json) → Spells (.value value.toRaw) value.compact
  | null => by rw [toRaw, compact]; exact .null
  | bool b => by rw [toRaw, compact]; exact .bool b
  | number n => by rw [toRaw, compact]; exact spells_number n
  | string s => by rw [toRaw, compact]; exact spells_quote s
  | array [] => by rw [toRaw, compact, rawItems, compactItems]; exact .emptyArray
  | array (item :: rest) => by
    rw [toRaw, compact]
    exact .array (spells_compactItems (item :: rest) (List.cons_ne_nil item rest))
  | object [] => by rw [toRaw, compact, rawMembers, compactMembers]; exact .emptyObject
  | object (member :: rest) => by
    rw [toRaw, compact]
    exact .object (spells_compactMembers (member :: rest) (List.cons_ne_nil member rest))

theorem spells_compactItems : (items : List Json) → items ≠ [] →
    Spells (.items (rawItems items)) (compactItems items)
  | [], h => absurd rfl h
  | [item], _ => by
    have hitem := Spells.lastItem (spells_compact item) isGap_nil
    rw [rawItems, rawItems, compactItems]
    rwa [List.append_nil] at hitem
  | item :: next :: rest, _ => by
    have hnext := List.cons_ne_nil next rest
    rw [rawItems, compactItems.eq_3 _ _ hnext]
    exact .moreItems (spells_compact item) (spells_compactItems (next :: rest) hnext)

theorem spells_compactMembers : (members : List (String × Json)) → members ≠ [] →
    Spells (.members (rawMembers members)) (compactMembers members)
  | [], h => absurd rfl h
  | [(name, value)], _ => by
    have hvalue := Spells.lastMember name.toList (spells_compact value) isGap_nil
    rw [rawMembers, rawMembers, compactMembers, quote_append]
    rwa [List.append_nil] at hvalue
  | (name, value) :: next :: rest, _ => by
    have hnext := List.cons_ne_nil next rest
    rw [rawMembers, compactMembers.eq_3 _ _ _ hnext, List.append_assoc, quote_append]
    exact .moreMembers name.toList (spells_compact value)
      (spells_compactMembers (next :: rest) hnext)

end

/-- Blanks may stand before a part. -/
theorem spells_gap {part : RawJson.Part} {gap text : List Char} (hgap : IsGap gap)
    (h : Spells part text) : Spells part (gap ++ text) := by
  induction gap with
  | nil => exact h
  | cons c gap ih =>
    have hrest : IsGap gap := fun d hd => hgap d (List.mem_cons_of_mem c hd)
    exact .blank (hgap c List.mem_cons_self) (ih hrest)

theorem isGap_newLine (level : Nat) : IsGap (newLine level) := by
  intro c hc
  obtain rfl | hc := List.mem_cons.1 hc
  · rfl
  · rw [List.eq_of_mem_replicate hc]
    rfl

mutual

theorem spells_prettyAt : (level : Nat) → (value : Json) →
    Spells (.value value.toRaw) (value.prettyAt level)
  | _, null => by rw [toRaw, prettyAt]; exact .null
  | _, bool b => by rw [toRaw, prettyAt]; exact .bool b
  | _, number n => by rw [toRaw, prettyAt]; exact spells_number n
  | _, string s => by rw [toRaw, prettyAt]; exact spells_quote s
  | _, array [] => by rw [toRaw, prettyAt, rawItems]; exact .emptyArray
  | level, array (item :: rest) => by
    rw [toRaw, prettyAt, List.cons_append]
    exact .array (spells_prettyItems (level + 1) (item :: rest) (List.cons_ne_nil item rest)
      (isGap_newLine level))
  | _, object [] => by rw [toRaw, prettyAt, rawMembers]; exact .emptyObject
  | level, object (member :: rest) => by
    rw [toRaw, prettyAt, List.cons_append]
    exact .object (spells_prettyMembers (level + 1) (member :: rest)
      (List.cons_ne_nil member rest) (isGap_newLine level))

theorem spells_prettyItems : (level : Nat) → (items : List Json) → items ≠ [] →
    {gap : List Char} → IsGap gap →
    Spells (.items (rawItems items)) (prettyItems level items ++ gap)
  | _, [], h, _, _ => absurd rfl h
  | level, [item], _, _, hgap => by
    rw [rawItems, rawItems, prettyItems]
    exact .lastItem (spells_gap (isGap_newLine level) (spells_prettyAt level item)) hgap
  | level, item :: next :: rest, _, _, hgap => by
    have hnext := List.cons_ne_nil next rest
    rw [rawItems, prettyItems.eq_3 _ _ _ hnext, List.append_assoc, List.cons_append]
    exact .moreItems (spells_gap (isGap_newLine level) (spells_prettyAt level item))
      (spells_prettyItems level (next :: rest) hnext hgap)

theorem spells_prettyMembers : (level : Nat) → (members : List (String × Json)) → members ≠ [] →
    {gap : List Char} → IsGap gap →
    Spells (.members (rawMembers members)) (prettyMembers level members ++ gap)
  | _, [], h, _, _ => absurd rfl h
  | level, [(name, value)], _, gap, hgap => by
    have hvalue := Spells.blank (c := ' ') rfl (spells_prettyAt level value)
    have hmember := Spells.lastMember name.toList hvalue hgap
    rw [rawMembers, rawMembers, prettyMembers, List.append_assoc, List.append_assoc, quote_append]
    exact spells_gap (isGap_newLine level) hmember
  | level, (name, value) :: next :: rest, _, gap, hgap => by
    have hnext := List.cons_ne_nil next rest
    have hvalue := Spells.blank (c := ' ') rfl (spells_prettyAt level value)
    have hmember := Spells.moreMembers name.toList hvalue
      (spells_prettyMembers level (next :: rest) hnext hgap)
    rw [rawMembers, prettyMembers.eq_3 _ _ _ _ hnext]
    simp only [List.append_assoc, List.cons_append, quote_append]
    exact spells_gap (isGap_newLine level) hmember

end

/-! ## Reading the texts -/

/-- The text without blanks is read as the value. -/
theorem parse?_toCompact (value : Json) : RawJson.parse? value.toCompact = some value.toRaw := by
  apply RawJson.parse?_of_spells
  rw [toCompact, String.toList_ofList]
  exact spells_compact value

/-- The text on several lines is read as the value. -/
theorem parse?_toPretty (value : Json) : RawJson.parse? value.toPretty = some value.toRaw := by
  apply RawJson.parse?_of_spells
  rw [toPretty, String.toList_ofList]
  exact spells_prettyAt 0 value

/-- So is a line that ends with this text. -/
theorem parse?_toPretty_line (value : Json) :
    RawJson.parse? (value.toPretty ++ "\n") = some value.toRaw := by
  apply RawJson.parse?_line_of_spells
  rw [toPretty, String.toList_ofList]
  exact spells_prettyAt 0 value

end Json

end NeighborSearch
