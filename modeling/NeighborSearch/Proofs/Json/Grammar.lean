import Mathlib.Data.List.DropRight
import NeighborSearch.Proofs.Json.Numbers
import NeighborSearch.Proofs.Json.Strings

/-!
# The grammar of JSON

`Spells` says which texts spell a value, with blanks wherever the grammar allows them before a part
and at the end of an array or an object. The reader takes every such text for the value that it
spells, whatever the blanks are, and stops where the value ends.
-/

namespace NeighborSearch.RawJson

open Json (Numeral continuesNumber escape)
open Text (startsWith)

/-- A part of a text: a value, or what stands between the brackets of an array or an object. -/
inductive Part where
  | value (v : RawJson)
  | items (vs : List RawJson)
  | members (ms : List (List Char × RawJson))

/-- Nothing but blanks. -/
def IsGap (gap : List Char) : Prop :=
  ∀ c ∈ gap, isBlank c = true

/-- The texts of a part. -/
inductive Spells : Part → List Char → Prop where
  | null : Spells (.value .null) ['n', 'u', 'l', 'l']
  | bool (b : Bool) : Spells (.value (.bool b)) (Json.boolText b)
  | number {n : Numeral} (valid : n.Valid) : Spells (.value (.number n)) n.text
  | string (s : List Char) : Spells (.value (.string (escape s))) ('"' :: (escape s ++ ['"']))
  | emptyArray : Spells (.value (.array [])) ['[', ']']
  | array {vs : List RawJson} {text : List Char} (items : Spells (.items vs) text) :
      Spells (.value (.array vs)) ('[' :: (text ++ [']']))
  | emptyObject : Spells (.value (.object [])) ['{', '}']
  | object {ms : List (List Char × RawJson)} {text : List Char}
      (members : Spells (.members ms) text) :
      Spells (.value (.object ms)) ('{' :: (text ++ ['}']))
  | blank {part : Part} {c : Char} {text : List Char} (hc : isBlank c = true)
      (rest : Spells part text) : Spells part (c :: text)
  | lastItem {v : RawJson} {text gap : List Char} (value : Spells (.value v) text)
      (hgap : IsGap gap) : Spells (.items [v]) (text ++ gap)
  | moreItems {v : RawJson} {vs : List RawJson} {text rest : List Char}
      (value : Spells (.value v) text) (items : Spells (.items vs) rest) :
      Spells (.items (v :: vs)) (text ++ ',' :: rest)
  | lastMember (name : List Char) {v : RawJson} {text gap : List Char}
      (value : Spells (.value v) text) (hgap : IsGap gap) :
      Spells (.members [(escape name, v)])
        ('"' :: (escape name ++ '"' :: ':' :: (text ++ gap)))
  | moreMembers (name : List Char) {v : RawJson} {ms : List (List Char × RawJson)}
      {text rest : List Char} (value : Spells (.value v) text)
      (members : Spells (.members ms) rest) :
      Spells (.members ((escape name, v) :: ms))
        ('"' :: (escape name ++ '"' :: ':' :: (text ++ ',' :: rest)))

/-! ## Blanks -/

theorem skipBlanks_cons {c : Char} (hc : isBlank c = true) (s : List Char) :
    skipBlanks (c :: s) = skipBlanks s :=
  List.dropWhile_cons_of_pos hc

theorem skipBlanks_of_not_blank {c : Char} (hc : isBlank c = false) (s : List Char) :
    skipBlanks (c :: s) = c :: s :=
  List.dropWhile_cons_of_neg (by simp [hc])

theorem skipBlanks_gap {gap : List Char} (hgap : IsGap gap) {c : Char} (hc : isBlank c = false)
    (rest : List Char) : skipBlanks (gap ++ c :: rest) = c :: rest :=
  Text.dropWhile_run hgap hc

theorem skipBlanks_idem (s : List Char) : skipBlanks (skipBlanks s) = skipBlanks s :=
  List.dropWhile_idempotent isBlank s

theorem scanValue_skipBlanks (fuel : Nat) (s : List Char) :
    scanValue fuel (skipBlanks s) = scanValue fuel s := by
  cases fuel with
  | zero => rfl
  | succ fuel => rw [scanValue, scanValue, skipBlanks_idem]

theorem scanItems_skipBlanks (fuel : Nat) (s : List Char) :
    scanItems fuel (skipBlanks s) = scanItems fuel s := by
  cases fuel with
  | zero => rfl
  | succ fuel => rw [scanItems, scanItems, scanValue_skipBlanks]

theorem scanMember_skipBlanks (fuel : Nat) (s : List Char) :
    scanMember fuel (skipBlanks s) = scanMember fuel s := by
  cases fuel with
  | zero => rfl
  | succ fuel => rw [scanMember, scanMember, skipBlanks_idem]

theorem scanMembers_skipBlanks (fuel : Nat) (s : List Char) :
    scanMembers fuel (skipBlanks s) = scanMembers fuel s := by
  cases fuel with
  | zero => rfl
  | succ fuel => rw [scanMembers, scanMembers, scanMember_skipBlanks]

/-! ## Steps of the reader -/

theorem scanValue_bool (fuel : Nat) (b : Bool) (rest : List Char) :
    scanValue (fuel + 1) (Json.boolText b ++ rest) = some (.bool b, rest) := by
  cases b <;> rfl

/-- A number starts with its sign or with a digit. -/
theorem numeral_start {n : Numeral} (hn : n.Valid) :
    ∃ c t, n.text = c :: t ∧ (c = '-' ∨ c.isDigit = true) := by
  obtain ⟨d, whole, hwhole⟩ := List.exists_cons_of_ne_nil hn.whole.nonempty
  have hd := hn.whole.digits d (by rw [hwhole]; exact List.mem_cons_self)
  unfold Numeral.text
  cases n.negative with
  | true => exact ⟨'-', _, rfl, .inl rfl⟩
  | false => exact ⟨d, _, by rw [hwhole]; rfl, .inr hd⟩

theorem scanValue_number {fuel : Nat} {n : Numeral} (hn : n.Valid) {rest : List Char}
    (hrest : startsWith continuesNumber rest = false) :
    scanValue (fuel + 1) (n.text ++ rest) = some (.number n, rest) := by
  have hread := scanNumeral_text hn hrest
  obtain ⟨c, t, htext, hc⟩ := numeral_start hn
  have hother : ∀ d : Char, d.isDigit = false → d ≠ '-' → c ≠ d := by
    rintro d hdigit hminus rfl
    obtain rfl | hc := hc
    · exact hminus rfl
    · rw [hdigit] at hc
      cases hc
  have hblank : isBlank c = false := by
    simp [isBlank, hother ' ' rfl (by decide), hother '\n' rfl (by decide),
      hother '\t' rfl (by decide), hother '\r' rfl (by decide)]
  rw [htext, List.cons_append] at hread ⊢
  rw [scanValue, skipBlanks_of_not_blank hblank]
  split
  · next h => exact absurd (List.cons.inj h).1 (hother '"' rfl (by decide))
  · next h => exact absurd (List.cons.inj h).1 (hother '[' rfl (by decide))
  · next h => exact absurd (List.cons.inj h).1 (hother '{' rfl (by decide))
  · next h =>
    obtain ⟨rfl, rfl⟩ := List.cons.inj h
    rw [if_pos hc, hread]
    rfl
  · next h => cases h

theorem scanValue_string (fuel : Nat) (s rest : List Char) :
    scanValue (fuel + 1) ('"' :: (escape s ++ '"' :: rest)) = some (.string (escape s), rest) := by
  rw [scanValue, skipBlanks_of_not_blank (by decide)]
  simp only [scanString_escape, Option.map_some]

/-- Where items are read, no bracket closes the array before the first one. -/
theorem scanItems_closed (fuel : Nat) {s rest : List Char} (h : skipBlanks s = ']' :: rest) :
    scanItems fuel s = none := by
  rw [← scanItems_skipBlanks, h]
  match fuel with
  | 0 => rfl
  | 1 => rfl
  | fuel + 2 => rfl

theorem scanMembers_closed (fuel : Nat) {s rest : List Char} (h : skipBlanks s = '}' :: rest) :
    scanMembers fuel s = none := by
  rw [← scanMembers_skipBlanks, h]
  match fuel with
  | 0 => rfl
  | 1 => rfl
  | fuel + 2 => rfl

theorem scanValue_bracket (fuel : Nat) (s : List Char) :
    scanValue (fuel + 1) ('[' :: s) = match skipBlanks s with
      | ']' :: rest => some (.array [], rest)
      | rest => (scanItems fuel rest).map fun (items, rest) => (.array items, rest) := rfl

theorem scanValue_brace (fuel : Nat) (s : List Char) :
    scanValue (fuel + 1) ('{' :: s) = match skipBlanks s with
      | '}' :: rest => some (.object [], rest)
      | rest => (scanMembers fuel rest).map fun (members, rest) => (.object members, rest) := rfl

theorem scanValue_array {fuel : Nat} {s rest : List Char} {vs : List RawJson}
    (h : scanItems fuel s = some (vs, rest)) :
    scanValue (fuel + 1) ('[' :: s) = some (.array vs, rest) := by
  rw [scanValue_bracket]
  split
  · next hclosed =>
    rw [scanItems_closed fuel hclosed] at h
    cases h
  · rw [scanItems_skipBlanks, h]
    rfl

theorem scanValue_object {fuel : Nat} {s rest : List Char} {ms : List (List Char × RawJson)}
    (h : scanMembers fuel s = some (ms, rest)) :
    scanValue (fuel + 1) ('{' :: s) = some (.object ms, rest) := by
  rw [scanValue_brace]
  split
  · next hclosed =>
    rw [scanMembers_closed fuel hclosed] at h
    cases h
  · rw [scanMembers_skipBlanks, h]
    rfl

theorem scanItems_last {fuel : Nat} {s gap rest : List Char} {v : RawJson} (hgap : IsGap gap)
    (h : scanValue fuel s = some (v, gap ++ ']' :: rest)) :
    scanItems (fuel + 1) s = some ([v], rest) := by
  rw [scanItems, h]
  simp only [skipBlanks_gap hgap (c := ']') (by decide)]

theorem scanItems_more {fuel : Nat} {s t rest : List Char} {v : RawJson} {vs : List RawJson}
    (h : scanValue fuel s = some (v, ',' :: t)) (hrest : scanItems fuel t = some (vs, rest)) :
    scanItems (fuel + 1) s = some (v :: vs, rest) := by
  rw [scanItems, h]
  simp only [skipBlanks_of_not_blank (c := ',') (by decide), hrest, Option.map_some]

theorem scanMember_colon {fuel : Nat} (name : List Char) {s rest : List Char} {v : RawJson}
    (h : scanValue fuel s = some (v, rest)) :
    scanMember (fuel + 1) ('"' :: (escape name ++ '"' :: ':' :: s))
      = some ((escape name, v), rest) := by
  rw [scanMember, skipBlanks_of_not_blank (by decide)]
  simp only [scanString_escape, skipBlanks_of_not_blank (c := ':') (by decide), h, Option.map_some]

theorem scanMembers_last {fuel : Nat} {s gap rest : List Char} {m : List Char × RawJson}
    (hgap : IsGap gap) (h : scanMember fuel s = some (m, gap ++ '}' :: rest)) :
    scanMembers (fuel + 1) s = some ([m], rest) := by
  rw [scanMembers, h]
  simp only [skipBlanks_gap hgap (c := '}') (by decide)]

theorem scanMembers_more {fuel : Nat} {s t rest : List Char} {m : List Char × RawJson}
    {ms : List (List Char × RawJson)} (h : scanMember fuel s = some (m, ',' :: t))
    (hrest : scanMembers fuel t = some (ms, rest)) :
    scanMembers (fuel + 1) s = some (m :: ms, rest) := by
  rw [scanMembers, h]
  simp only [skipBlanks_of_not_blank (c := ',') (by decide), hrest, Option.map_some]

/-! ## Whole texts -/

/-- What reading the text of a part means. A number ends only where something else starts; three
steps for each character are enough. -/
def Part.IsRead (text : List Char) : Part → Prop
  | value v => ∀ fuel rest, 3 * text.length ≤ fuel → startsWith continuesNumber rest = false →
      scanValue fuel (text ++ rest) = some (v, rest)
  | items vs => ∀ fuel rest, 3 * text.length + 1 ≤ fuel →
      scanItems fuel (text ++ ']' :: rest) = some (vs, rest)
  | members ms => ∀ fuel rest, 3 * text.length + 2 ≤ fuel →
      scanMembers fuel (text ++ '}' :: rest) = some (ms, rest)

theorem isRead_blank {part : Part} {c : Char} {text : List Char} (hc : isBlank c = true)
    (h : part.IsRead text) : part.IsRead (c :: text) := by
  have hskip : ∀ t, skipBlanks (c :: text ++ t) = skipBlanks (text ++ t) :=
    fun t => skipBlanks_cons hc (text ++ t)
  cases part with
  | value v =>
    intro fuel rest hfuel hrest
    rw [← scanValue_skipBlanks, hskip, scanValue_skipBlanks]
    exact h fuel rest (by rw [List.length_cons] at hfuel; omega) hrest
  | items vs =>
    intro fuel rest hfuel
    rw [← scanItems_skipBlanks, hskip, scanItems_skipBlanks]
    exact h fuel rest (by rw [List.length_cons] at hfuel; omega)
  | members ms =>
    intro fuel rest hfuel
    rw [← scanMembers_skipBlanks, hskip, scanMembers_skipBlanks]
    exact h fuel rest (by rw [List.length_cons] at hfuel; omega)

/-- Blanks do not go on with a number, and neither does what follows them. -/
theorem gap_ends_number {gap : List Char} (hgap : IsGap gap) {c : Char}
    (hc : continuesNumber c = false) (rest : List Char) :
    startsWith continuesNumber (gap ++ c :: rest) = false := by
  cases gap with
  | nil => exact hc
  | cons d gap =>
    have hd : isBlank d = true := hgap d List.mem_cons_self
    simp only [isBlank, Bool.or_eq_true, beq_iff_eq] at hd
    obtain ((rfl | rfl) | rfl) | rfl := hd <;> rfl

/-- Every text of a part is read as that part. -/
theorem isRead_of_spells {part : Part} {text : List Char} (h : Spells part text) :
    part.IsRead text := by
  induction h with
  | null =>
    intro fuel rest hfuel _
    obtain ⟨fuel, rfl⟩ := Nat.exists_eq_add_of_le' (Nat.one_le_of_lt hfuel)
    rfl
  | bool b =>
    intro fuel rest hfuel _
    have hlength : 0 < (Json.boolText b).length := by cases b <;> decide
    obtain ⟨fuel, rfl⟩ := Nat.exists_eq_add_of_le' (show 1 ≤ fuel by omega)
    exact scanValue_bool fuel b rest
  | number valid =>
    intro fuel rest hfuel hrest
    obtain ⟨c, t, htext, _⟩ := numeral_start valid
    rw [htext, List.length_cons] at hfuel
    obtain ⟨fuel, rfl⟩ := Nat.exists_eq_add_of_le' (show 1 ≤ fuel by omega)
    exact scanValue_number valid hrest
  | string s =>
    intro fuel rest hfuel _
    rw [List.length_cons] at hfuel
    obtain ⟨fuel, rfl⟩ := Nat.exists_eq_add_of_le' (show 1 ≤ fuel by omega)
    rw [List.cons_append, List.append_assoc]
    exact scanValue_string fuel s rest
  | emptyArray =>
    intro fuel rest hfuel _
    obtain ⟨fuel, rfl⟩ := Nat.exists_eq_add_of_le' (Nat.one_le_of_lt hfuel)
    rfl
  | array items ih =>
    intro fuel rest hfuel _
    rw [List.length_cons, List.length_append, List.length_singleton] at hfuel
    obtain ⟨fuel, rfl⟩ := Nat.exists_eq_add_of_le' (show 1 ≤ fuel by omega)
    rw [List.cons_append, List.append_assoc]
    exact scanValue_array (ih fuel rest (by omega))
  | emptyObject =>
    intro fuel rest hfuel _
    obtain ⟨fuel, rfl⟩ := Nat.exists_eq_add_of_le' (Nat.one_le_of_lt hfuel)
    rfl
  | object members ih =>
    intro fuel rest hfuel _
    rw [List.length_cons, List.length_append, List.length_singleton] at hfuel
    obtain ⟨fuel, rfl⟩ := Nat.exists_eq_add_of_le' (show 1 ≤ fuel by omega)
    rw [List.cons_append, List.append_assoc]
    exact scanValue_object (ih fuel rest (by omega))
  | blank hc _ ih => exact isRead_blank hc ih
  | lastItem value hgap ih =>
    intro fuel rest hfuel
    rw [List.length_append] at hfuel
    obtain ⟨fuel, rfl⟩ := Nat.exists_eq_add_of_le' (show 1 ≤ fuel by omega)
    rw [List.append_assoc]
    -- the blanks are left to the list, and must not be taken for more of a number
    exact scanItems_last hgap (ih fuel _ (by omega) (gap_ends_number hgap rfl rest))
  | moreItems value items ih ihs =>
    intro fuel rest hfuel
    rw [List.length_append, List.length_cons] at hfuel
    obtain ⟨fuel, rfl⟩ := Nat.exists_eq_add_of_le' (show 1 ≤ fuel by omega)
    rw [List.append_assoc, List.cons_append]
    exact scanItems_more (ih fuel _ (by omega) rfl) (ihs fuel rest (by omega))
  | lastMember name value hgap ih =>
    intro fuel rest hfuel
    simp only [List.length_cons, List.length_append] at hfuel
    -- one step for the list and one for the member itself
    obtain ⟨fuel, rfl⟩ := Nat.exists_eq_add_of_le' (show 2 ≤ fuel by omega)
    have hvalue := ih fuel _ (by omega) (gap_ends_number hgap (c := '}') rfl rest)
    simp only [List.cons_append, List.append_assoc]
    exact scanMembers_last hgap (scanMember_colon name hvalue)
  | @moreMembers name _ _ _ others value members ih ihs =>
    intro fuel rest hfuel
    simp only [List.length_cons, List.length_append] at hfuel
    obtain ⟨fuel, rfl⟩ := Nat.exists_eq_add_of_le' (show 2 ≤ fuel by omega)
    have hvalue := ih fuel (',' :: (others ++ '}' :: rest)) (by omega) rfl
    simp only [List.cons_append, List.append_assoc]
    exact scanMembers_more (scanMember_colon name hvalue) (ihs (fuel + 1) rest (by omega))

/-- A line that spells a value is read as that value. -/
theorem parse?_line_of_spells {v : RawJson} {text : String} (h : Spells (.value v) text.toList) :
    parse? (text ++ "\n") = some v := by
  have hlength : 3 * text.toList.length ≤ 3 * (text ++ "\n").length + 3 := by
    rw [String.length_toList, String.length_append]
    omega
  have hread := isRead_of_spells h (3 * (text ++ "\n").length + 3) ['\n'] hlength rfl
  have htext : (text ++ "\n").toList = text.toList ++ ['\n'] := String.toList_append
  rw [parse?, htext, hread]
  rfl

/-- A text that spells a value is read as that value. -/
theorem parse?_of_spells {v : RawJson} {text : String} (h : Spells (.value v) text.toList) :
    parse? text = some v := by
  have hlength : 3 * text.toList.length ≤ 3 * text.length + 3 := by
    rw [String.length_toList]
    omega
  have hread := isRead_of_spells h (3 * text.length + 3) [] hlength rfl
  rw [List.append_nil] at hread
  rw [parse?, hread]
  rfl

end NeighborSearch.RawJson
