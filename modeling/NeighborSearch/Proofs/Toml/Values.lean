import Mathlib.Data.List.Basic
import NeighborSearch.Proofs.Text.Digits
import NeighborSearch.Proofs.Toml.Strings
import NeighborSearch.Settings.Text

/-!
# Values in TOML

Natural numbers, booleans, strings and lists of strings are read back as they are written, up to the
newline that follows them.
-/

namespace NeighborSearch.Toml

open Config (Value)
open Text (IsDigits isDigits_toDigits)

/-! ## Natural numbers -/

/-- Digits without underscores are a number as they are. -/
theorem ungroup_digits {digits : List Char} (h : IsDigits digits) :
    ungroup Char.isDigit digits = some digits := by
  obtain ⟨hnonempty, hdigits⟩ := h
  induction digits with
  | nil => exact absurd rfl hnonempty
  | cons c digits ih =>
    obtain ⟨hc, hrest⟩ := List.forall_mem_cons.1 hdigits
    match digits with
    | [] => rw [ungroup, if_pos hc]
    | d :: digits =>
      have hd : d ≠ '_' := by
        rintro rfl
        exact absurd (hrest '_' List.mem_cons_self) (by decide)
      rw [ungroup, if_pos hc, ih (List.cons_ne_nil d digits) hrest]
      · rfl
      · exact List.cons_ne_nil d digits
      · intro t h
        exact hd (List.cons.inj h).1

theorem hexValue?_digit {c : Char} (h : c.isDigit = true) :
    Text.hexValue? c = some (c.toNat - '0'.toNat) := by
  rw [Text.hexValue?, if_pos h]

theorem digitsValue_toDigits (n : Nat) : digitsValue 10 (Nat.toDigits 10 n) = n := by
  refine Eq.trans (List.foldl_ext _ _ _ fun sofar c hc => ?_) (Text.foldl_toDigits n)
  rw [hexValue?_digit ((isDigits_toDigits n).digits c hc), Option.getD_some]

theorem decimalInteger?_toDigits (n : Nat) :
    decimalInteger? (Nat.toDigits 10 n) = some (n : Int) := by
  have hdigits := isDigits_toDigits n
  have hsign : splitSign (Nat.toDigits 10 n) = (false, Nat.toDigits 10 n) := by
    obtain ⟨c, digits, htext⟩ := List.exists_cons_of_ne_nil hdigits.nonempty
    have hc := hdigits.digits c (htext ▸ List.mem_cons_self)
    rw [htext, splitSign]
    · rintro t h
      rw [(List.cons.inj h).1] at hc
      exact absurd hc (by decide)
    · rintro t h
      rw [(List.cons.inj h).1] at hc
      exact absurd hc (by decide)
  have hwhole : wholeDigits? (Nat.toDigits 10 n) = some (Nat.toDigits 10 n) := by
    rw [wholeDigits?, ungroup_digits hdigits]
    split
    · next c digits h =>
      have hlead := Text.toDigits_of_head? (n := n) (by rw [Option.some.inj h]; rfl)
      rw [Option.some.inj h] at hlead
      cases hlead
    · rfl
  simp only [decimalInteger?, hsign, hwhole, Option.map_some, digitsValue_toDigits,
    Bool.false_eq_true, if_false]

/-- A number without a needless zero has no base of its own. -/
theorem integer?_toDigits (n : Nat) : integer? (Nat.toDigits 10 n) = some (n : Int) := by
  unfold integer?
  split
  · next c digits h =>
    have hlead := Text.toDigits_of_head? (n := n) (by rw [h]; rfl)
    rw [h] at hlead
    cases hlead
  · exact decimalInteger?_toDigits n

/-! ## Words -/

section

variable {dialect : Dialect}

/-- A word goes up to the newline. -/
theorem takeWord_newline {word : List Char} (h : ∀ c ∈ word, isWordChar c = true)
    (rest : List Char) : takeWord (word ++ '\n' :: rest) = (word, '\n' :: rest) := by
  rw [takeWord, Text.takeWhile_run h rfl, Text.dropWhile_run h rfl]
  rfl

theorem isWordChar_of_isDigit {c : Char} (h : c.isDigit = true) : isWordChar c = true := by
  simp [isWordChar, Char.isAlphanum, h]

theorem readScalar_toDigits {n : Nat} (hn : dialect.integers.holds n = true) (rest : List Char) :
    readScalar dialect (Nat.toDigits 10 n ++ '\n' :: rest) = some (.integer n, '\n' :: rest) := by
  have hdigits := (isDigits_toDigits n).digits
  have hword : scalar? dialect.edition (Nat.toDigits 10 n) = some (.integer n) := by
    have hletter : ∀ c t, c.isDigit = false → Nat.toDigits 10 n ≠ c :: t := by
      intro c t hc h
      rw [hdigits c (h ▸ List.mem_cons_self)] at hc
      cases hc
    rw [scalar?, if_neg (hletter 't' _ rfl), if_neg (hletter 'f' _ rfl), integer?_toDigits]
  rw [readScalar, takeWord_newline fun c hc => isWordChar_of_isDigit (hdigits c hc)]
  simp only [hword, hn, if_true]

theorem isWordChar_of_mem_boolean (b : Bool) : ∀ c ∈ boolean b, isWordChar c = true :=
  List.all_eq_true.1 (by cases b <;> decide)

theorem readScalar_boolean (b : Bool) (rest : List Char) :
    readScalar dialect (boolean b ++ '\n' :: rest) = some (.boolean b, '\n' :: rest) := by
  rw [readScalar, takeWord_newline (isWordChar_of_mem_boolean b)]
  cases b <;> rfl

/-! ## Values of one line -/

theorem readValue_word (depth fuel : Nat) {word : List Char} (hnonempty : word ≠ [])
    (hword : ∀ c ∈ word, isWordChar c = true) (rest : List Char) :
    readValue dialect depth (fuel + 1) (word ++ rest) = readScalar dialect (word ++ rest) := by
  obtain ⟨c, word, rfl⟩ := List.exists_cons_of_ne_nil hnonempty
  have hc := hword c List.mem_cons_self
  have hother : ∀ d, isWordChar d = false → c ≠ d := by
    rintro d hd rfl
    rw [hd] at hc
    cases hc
  have hquote : ¬(c = '"' ∨ c = '\'') := by
    rintro (h | h)
    · exact hother '"' rfl h
    · exact hother '\'' rfl h
  rw [List.cons_append, readValue, if_neg hquote]
  · exact hother '[' rfl
  · exact hother '{' rfl

/-- A string starts with its delimiter. -/
theorem quote_start (s : String) : ∃ c t, quote s = c :: t ∧ (c = '"' ∨ c = '\'') := by
  unfold quote Style.write
  cases Style.choose s.toList with
  | basic => exact ⟨'"', _, rfl, .inl rfl⟩
  | literal => exact ⟨'\'', _, rfl, .inr rfl⟩
  | multiBasic => exact ⟨'"', _, rfl, .inl rfl⟩
  | multiLiteral => exact ⟨'\'', _, rfl, .inr rfl⟩

theorem readValue_quote (depth fuel : Nat) (s : String) {rest : List Char}
    (hdouble : ¬StartsWith '"' rest) (hsingle : ¬StartsWith '\'' rest) :
    readValue dialect depth (fuel + 1) (quote s ++ rest) = some (.string s, rest) := by
  have hread : readString dialect (quote s ++ rest) = some (s.toList, rest) :=
    readString_quote hdouble hsingle s
  obtain ⟨c, t, htext, hc⟩ := quote_start s
  rw [htext, List.cons_append] at hread ⊢
  rw [readValue, if_pos hc, hread]
  · simp only [Option.map_some, String.ofList_toList]
  · rintro rfl
    exact absurd hc (by decide)
  · rintro rfl
    exact absurd hc (by decide)

/-! ## Lists of strings -/

/-- Whether lines are skipped up to a character and no further. -/
def stopsLines (c : Char) : Bool :=
  !(isBlank c || c == '#' || c == '\n' || c == '\r')

theorem skipLines_stop {c : Char} (hc : stopsLines c = true) (fuel : Nat) (t : List Char) :
    skipLines fuel (c :: t) = c :: t := by
  simp only [stopsLines, Bool.not_eq_true', Bool.or_eq_false_iff, beq_eq_false_iff_ne] at hc
  obtain ⟨⟨⟨hblank, hcomment⟩, hnewline⟩, hreturn⟩ := hc
  match fuel with
  | 0 => rfl
  | fuel + 1 =>
    have hskip : skipComment (skipBlanks (c :: t)) = c :: t := by
      rw [skipBlanks, List.dropWhile_cons_of_neg (by rw [hblank]; decide), skipComment]
      rintro u h
      exact hcomment (List.cons.inj h).1
    have hstay : dropNewline? (c :: t) = none := by
      unfold dropNewline?
      split
      · next h => exact absurd (List.cons.inj h).1 hnewline
      · next h => exact absurd (List.cons.inj h).1 hreturn
      · rfl
    simp only [skipLines, hskip, hstay]

theorem skipLines_newline (fuel : Nat) (t : List Char) :
    skipLines (fuel + 1) ('\n' :: t) = skipLines fuel t := rfl

/-- The blanks before a value are skipped. -/
theorem skipLines_indent (fuel : Nat) {c : Char} (hc : stopsLines c = true) (t : List Char) :
    skipLines (fuel + 1) (' ' :: ' ' :: ' ' :: ' ' :: c :: t) = c :: t := by
  exact Eq.trans (b := skipLines (fuel + 1) (c :: t)) rfl (skipLines_stop hc (fuel + 1) t)

theorem quote_stopsLines (s : String) : ∃ c t, quote s = c :: t ∧ stopsLines c = true
    ∧ c ≠ ']' := by
  obtain ⟨c, t, htext, hc⟩ := quote_start s
  obtain rfl | rfl := hc
  · exact ⟨_, t, htext, rfl, by decide⟩
  · exact ⟨_, t, htext, rfl, by decide⟩

theorem readItems_close (depth fuel : Nat) (rest : List Char) :
    readItems dialect depth (fuel + 1) (']' :: rest) = some ([], rest) := by
  rw [readItems, skipLines_stop rfl]
  rfl

/-- One string of an array, and what follows it. -/
theorem readItems_quote (depth fuel : Nat) (s : String) {before : List Char}
    {c : Char} (hc : c = ',' ∨ c = ']') (t : List Char)
    (hbefore : skipLines (fuel + 1) before = quote s ++ c :: t) :
    readItems dialect depth (fuel + 2) before =
      if c = ',' then (readItems dialect depth (fuel + 1) t).map fun (items, rest) =>
        (.string s :: items, rest)
      else some ([.string s], t) := by
  have hvalue : readValue dialect depth (fuel + 1) (quote s ++ c :: t)
      = some (.string s, c :: t) := by
    refine readValue_quote depth fuel s ?_ ?_
    · obtain rfl | rfl := hc <;> exact fun h => absurd (Option.some.inj h) (by decide)
    · obtain rfl | rfl := hc <;> exact fun h => absurd (Option.some.inj h) (by decide)
  obtain ⟨d, u, htext, _, hd⟩ := quote_stopsLines s
  rw [htext, List.cons_append] at hbefore hvalue
  rw [readItems, hbefore]
  split
  · next h => exact absurd (List.cons.inj h).1 hd
  · rw [hvalue]
    obtain rfl | rfl := hc
    · simp only [skipLines_stop (c := ',') rfl, if_pos]
    · simp only [skipLines_stop (c := ']') rfl]
      rfl

/-- The line of an item. -/
def itemLine (s : String) : List Char :=
  "    ".toList ++ quote s ++ [',', '\n']

theorem readItems_lines (depth : Nat) (items : List String) {fuel : Nat}
    (hfuel : items.length + 3 ≤ fuel) (rest : List Char) :
    readItems dialect depth fuel ('\n' :: (items.flatMap itemLine ++ ']' :: rest))
      = some (items.map .string, rest) := by
  induction items generalizing fuel with
  | nil =>
    obtain ⟨fuel, rfl⟩ := Nat.exists_eq_add_of_le' hfuel
    change readItems dialect depth (fuel + 2 + 1) ('\n' :: ']' :: rest) = some ([], rest)
    rw [readItems, skipLines_newline, skipLines_stop rfl]
    rfl
  | cons s items ih =>
    obtain ⟨fuel, rfl⟩ := Nat.exists_eq_add_of_le' hfuel
    obtain ⟨c, t, htext, hc, _⟩ := quote_stopsLines s
    have hbefore : skipLines (fuel + (items.length + 3))
        ('\n' :: ((s :: items).flatMap itemLine ++ ']' :: rest))
        = quote s ++ ',' :: '\n' :: (items.flatMap itemLine ++ ']' :: rest) := by
      have hline : (s :: items).flatMap itemLine ++ ']' :: rest
          = ' ' :: ' ' :: ' ' :: ' ' :: c :: (t ++ ',' :: '\n' ::
            (items.flatMap itemLine ++ ']' :: rest)) := by
        rw [List.flatMap_cons, itemLine, htext]
        simp
      rw [hline, htext]
      exact skipLines_indent (fuel + (items.length + 1)) hc _
    have hlength : fuel + ((s :: items).length + 3) = fuel + (items.length + 2) + 2 := by
      rw [List.length_cons]
      omega
    rw [hlength, readItems_quote depth (fuel + (items.length + 2)) s (.inl rfl) _ hbefore,
      if_pos rfl, @ih (fuel + (items.length + 2) + 1) (by omega)]
    rfl

theorem strings_many (s s' : String) (items : List String) :
    strings (s :: s' :: items)
      = '[' :: '\n' :: ((s :: s' :: items).flatMap itemLine ++ [']']) := rfl

theorem readValue_bracket (depth fuel : Nat) (s : List Char) :
    readValue dialect (depth + 1) (fuel + 1) ('[' :: s)
      = (readItems dialect depth fuel s).map fun (items, rest) => (.array items, rest) := by
  rw [readValue]

/-- A list of strings is read as it is written, whatever follows it. -/
theorem readValue_strings (depth : Nat) (items : List String) {fuel : Nat}
    (hfuel : items.length + 4 ≤ fuel) (rest : List Char) :
    readValue dialect (depth + 1) fuel (strings items ++ rest)
      = some (.array (items.map .string), rest) := by
  obtain ⟨fuel, rfl⟩ := Nat.exists_eq_add_of_le' (Nat.le_trans (Nat.le_add_left 4 _) hfuel)
  have hread : ∀ text, readItems dialect depth (fuel + 3) text = some (items.map .string, rest) →
      readValue dialect (depth + 1) (fuel + 4) ('[' :: text)
        = some (.array (items.map .string), rest) := by
    intro text h
    rw [readValue_bracket, h]
    rfl
  match items with
  | [] => exact hread _ (readItems_close depth _ rest)
  | [s] =>
    obtain ⟨c, t, htext, hc, _⟩ := quote_stopsLines s
    have hbefore : skipLines (fuel + 2) (quote s ++ ']' :: rest) = quote s ++ ']' :: rest := by
      rw [htext]
      exact skipLines_stop hc _ _
    have hitems : readItems dialect depth (fuel + 3) (quote s ++ ']' :: rest)
        = some ([.string s], rest) := by
      rw [readItems_quote depth (fuel + 1) s (.inr rfl) rest hbefore, if_neg (by decide)]
    rw [strings, List.cons_append, List.cons_append, List.append_assoc]
    exact hread _ hitems
  | s :: s' :: items =>
    rw [strings_many, List.cons_append, List.cons_append, List.append_assoc]
    exact hread _ (readItems_lines depth (s :: s' :: items) (by omega) rest)

theorem length_strings (items : List String) : items.length + 2 ≤ (strings items).length := by
  match items with
  | [] => exact Nat.le_refl 2
  | [s] =>
    obtain ⟨c, t, htext, _⟩ := quote_start s
    simp [strings, htext]
  | s :: s' :: items =>
    have hlines : ∀ l : List String, l.length ≤ (l.flatMap itemLine).length := by
      intro l
      induction l with
      | nil => exact Nat.le_refl 0
      | cons s l ih =>
        rw [List.flatMap_cons, List.length_append, List.length_cons, itemLine, List.length_append,
          List.length_append]
        simp only [List.length_cons, List.length_nil]
        omega
    have := hlines (s :: s' :: items)
    rw [strings_many]
    simp only [List.length_cons, List.length_append] at this ⊢
    omega

/-! ## Values of lines -/

/-- A text stands for a value: it is read as the value where a newline follows it. -/
structure Denotes (dialect : Dialect) (text : List Char) (value : Value) : Prop where
  start : ∃ c t, text = c :: t ∧ isBlank c = false
  read : ∀ fuel rest, text.length + 2 ≤ fuel →
    readValue dialect dialect.depth fuel (text ++ '\n' :: rest) = some (value, '\n' :: rest)

theorem isBlank_of_isWordChar {c : Char} (h : isWordChar c = true) : isBlank c = false := by
  rw [Bool.eq_false_iff]
  intro hblank
  simp only [isBlank, Bool.or_eq_true, beq_iff_eq] at hblank
  obtain rfl | rfl := hblank <;> exact absurd h (by decide)

/-- Words stand for what scalars they are. -/
theorem denotes_word {word : List Char} {value : Value} (hnonempty : word ≠ [])
    (hword : ∀ c ∈ word, isWordChar c = true)
    (hread : ∀ rest, readScalar dialect (word ++ '\n' :: rest) = some (value, '\n' :: rest)) :
    Denotes dialect word value where
  start := by
    obtain ⟨c, t, rfl⟩ := List.exists_cons_of_ne_nil hnonempty
    exact ⟨c, t, rfl, isBlank_of_isWordChar (hword c List.mem_cons_self)⟩
  read fuel rest hfuel := by
    obtain ⟨fuel, rfl⟩ := Nat.exists_eq_add_of_le' (show 1 ≤ fuel by omega)
    rw [readValue_word dialect.depth fuel hnonempty hword, hread]

theorem denotes_natural {n : Nat} (hn : dialect.integers.holds n = true) :
    Denotes dialect (Nat.toDigits 10 n) (.integer n) := by
  have hdigits := isDigits_toDigits n
  refine denotes_word hdigits.nonempty (fun c hc => ?_) (readScalar_toDigits hn)
  exact isWordChar_of_isDigit (hdigits.digits c hc)

theorem denotes_boolean (b : Bool) : Denotes dialect (boolean b) (.boolean b) := by
  refine denotes_word ?_ (isWordChar_of_mem_boolean b) (readScalar_boolean b)
  cases b <;> decide

theorem denotes_quote (s : String) : Denotes dialect (quote s) (.string s) where
  start := by
    obtain ⟨c, t, htext, rfl | rfl⟩ := quote_start s
    · exact ⟨_, t, htext, rfl⟩
    · exact ⟨_, t, htext, rfl⟩
  read fuel rest hfuel := by
    obtain ⟨fuel, rfl⟩ := Nat.exists_eq_add_of_le' (show 1 ≤ fuel by omega)
    refine readValue_quote dialect.depth fuel s ?_ ?_
    · exact fun h => absurd (Option.some.inj h) (by decide)
    · exact fun h => absurd (Option.some.inj h) (by decide)

theorem denotes_strings (hdepth : 0 < dialect.depth) (items : List String) :
    Denotes dialect (strings items) (.array (items.map .string)) where
  start := by
    match items with
    | [] => exact ⟨'[', _, rfl, rfl⟩
    | [s] => exact ⟨'[', _, rfl, rfl⟩
    | s :: s' :: items => exact ⟨'[', _, rfl, rfl⟩
  read fuel rest hfuel := by
    have hlength := length_strings items
    obtain ⟨depth, hsucc⟩ := Nat.exists_eq_add_of_le' hdepth
    rw [hsucc]
    exact readValue_strings depth items (by omega) _

end

end NeighborSearch.Toml
