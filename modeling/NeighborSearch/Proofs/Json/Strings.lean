import NeighborSearch.Json.Decode
import NeighborSearch.Json.Printer

/-!
# Strings in JSON

A quoted string is read up to its closing quote, and its escapes stand for the characters that were
escaped. Both follow character by character.
-/

namespace NeighborSearch.Json

/-- The characters between the quotes of a string. -/
def escape (s : List Char) : List Char :=
  s.flatMap escapeChar

theorem quote_append (s : String) (rest : List Char) :
    quote s ++ rest = '"' :: (escape s.toList ++ '"' :: rest) := by
  simp [quote, escape]

theorem escape_cons (c : Char) (s : List Char) : escape (c :: s) = escapeChar c ++ escape s :=
  List.flatMap_cons

/-- The two digits of a control character name it. -/
theorem hexWord?_control : ∀ n < 0x20,
    RawJson.hexWord? '0' '0' (hexDigit (n / 16)) (hexDigit n) = some n := by
  decide

/-- How a character is written: after a backslash, by its code, or as it is. -/
theorem escapeChar_cases (c : Char) :
    (∃ e, e ≠ 'u' ∧ RawJson.simpleEscape? e = some c ∧ escapeChar c = ['\\', e])
    ∨ (c.toNat < 0x20
      ∧ escapeChar c = ['\\', 'u', '0', '0', hexDigit (c.toNat / 16), hexDigit c.toNat])
    ∨ (0x20 ≤ c.toNat ∧ c ≠ '"' ∧ c ≠ '\\' ∧ escapeChar c = [c]) := by
  unfold escapeChar
  split
  · exact .inl ⟨'"', by decide, rfl, rfl⟩
  · exact .inl ⟨'\\', by decide, rfl, rfl⟩
  · exact .inl ⟨'b', by decide, rfl, rfl⟩
  · exact .inl ⟨'t', by decide, rfl, rfl⟩
  · exact .inl ⟨'n', by decide, rfl, rfl⟩
  · exact .inl ⟨'f', by decide, rfl, rfl⟩
  · exact .inl ⟨'r', by decide, rfl, rfl⟩
  · next hquote hbackslash _ _ _ _ _ =>
    right
    by_cases hcontrol : c.toNat < 0x20
    · exact .inl ⟨hcontrol, if_pos hcontrol⟩
    · exact .inr ⟨Nat.le_of_not_lt hcontrol, hquote, hbackslash, if_neg hcontrol⟩

end NeighborSearch.Json

namespace NeighborSearch.RawJson

open Json (escape escapeChar quote)

/-! ## Reading up to the closing quote -/

theorem scanString_simple {e c : Char} (h : simpleEscape? e = some c) (hu : e ≠ 'u')
    (t : List Char) :
    scanString ('\\' :: e :: t)
      = (scanString t).map fun (inner, rest) => ('\\' :: e :: inner, rest) := by
  rw [scanString, h]
  · cases scanString t <;> rfl
  · intro a b c d rest he
    exact absurd he hu

theorem scanString_code {a b c d : Char} {n : Nat} (h : hexWord? a b c d = some n)
    (t : List Char) :
    scanString ('\\' :: 'u' :: a :: b :: c :: d :: t)
      = (scanString t).map fun (inner, rest) =>
        ('\\' :: 'u' :: a :: b :: c :: d :: inner, rest) := by
  rw [scanString, h]
  cases scanString t <;> rfl

theorem scanString_plain {c : Char} (hcontrol : 0x20 ≤ c.toNat) (hquote : c ≠ '"')
    (hbackslash : c ≠ '\\') (t : List Char) :
    scanString (c :: t) = (scanString t).map fun (inner, rest) => (c :: inner, rest) := by
  have hplain : ¬(c.toNat < 0x20 ∨ c = '\\') := by
    rintro (h | h)
    · omega
    · exact hbackslash h
  rw [scanString, if_neg hplain]
  · cases scanString t <;> rfl
  · exact hquote
  · intro a b c d rest h
    exact absurd h hbackslash
  · intro d rest h
    exact absurd h hbackslash

/-- What stands for one character is read before what follows it. -/
theorem scanString_escapeChar (c : Char) (t : List Char) :
    scanString (escapeChar c ++ t)
      = (scanString t).map fun (inner, rest) => (escapeChar c ++ inner, rest) := by
  obtain ⟨e, hu, hsimple, htext⟩ | ⟨hcontrol, htext⟩ | ⟨hlow, hquote, hbackslash, htext⟩ :=
    Json.escapeChar_cases c
  · rw [htext]
    exact scanString_simple hsimple hu t
  · rw [htext]
    exact scanString_code (Json.hexWord?_control c.toNat hcontrol) t
  · rw [htext]
    exact scanString_plain hlow hquote hbackslash t

/-- A string is read up to its closing quote, and no further. -/
theorem scanString_escape (s rest : List Char) :
    scanString (escape s ++ '"' :: rest) = some (escape s, rest) := by
  induction s with
  | nil => rfl
  | cons c s ih => rw [Json.escape_cons, List.append_assoc, scanString_escapeChar, ih]; rfl

/-! ## What escapes stand for -/

theorem unescape_simple {e c : Char} (h : simpleEscape? e = some c) (hu : e ≠ 'u')
    (t : List Char) : unescape ('\\' :: e :: t) = (unescape t).map (c :: ·) := by
  rw [unescape, h]
  · intro a b c d e f g h rest he
    exact absurd he hu
  · intro a b c d rest he
    exact absurd he hu

theorem unescape_plain {c : Char} (h : c ≠ '\\') (t : List Char) :
    unescape (c :: t) = (unescape t).map (c :: ·) := by
  rw [unescape]
  all_goals
    intros
    simp_all

/-- Nothing follows an escape whose code is none. -/
theorem unescape_malformed {a b c d : Char} (h : hexWord? a b c d = none) (t : List Char) :
    unescape ('\\' :: 'u' :: a :: b :: c :: d :: t) = none := by
  by_cases hpair : ∃ e f g i rest, t = '\\' :: 'u' :: e :: f :: g :: i :: rest
  · obtain ⟨e, f, g, i, rest, rfl⟩ := hpair
    rw [unescape, h]
  · rw [unescape, h]
    intro e f g i rest ht
    exact hpair ⟨e, f, g, i, rest, ht⟩

/-- A code below the surrogates is a character by itself, also where another code follows. -/
theorem unescape_code {a b c d : Char} {n : Nat} (h : hexWord? a b c d = some n) (hn : n < 0xD800)
    (t : List Char) :
    unescape ('\\' :: 'u' :: a :: b :: c :: d :: t) = (unescape t).map (Char.ofNat n :: ·) := by
  by_cases hpair : ∃ e f g i rest, t = '\\' :: 'u' :: e :: f :: g :: i :: rest
  · obtain ⟨e, f, g, i, rest, rfl⟩ := hpair
    rw [unescape, h]
    cases hlow : hexWord? e f g i with
    | none => rw [unescape_malformed hlow]; rfl
    | some low =>
      have hhigh : ¬(0xD800 ≤ n ∧ n < 0xDC00) := by omega
      have hlast : ¬(0xDC00 ≤ n ∧ n < 0xE000) := by omega
      simp only [if_neg hhigh, if_neg hlast]
  · have hscalar : ¬(0xD800 ≤ n ∧ n < 0xE000) := by omega
    rw [unescape, h]
    · simp only [if_neg hscalar]
    · intro e f g i rest ht
      exact hpair ⟨e, f, g, i, rest, ht⟩

theorem unescape_escapeChar (c : Char) (t : List Char) :
    unescape (escapeChar c ++ t) = (unescape t).map (c :: ·) := by
  obtain ⟨e, hu, hsimple, htext⟩ | ⟨hcontrol, htext⟩ | ⟨_, _, hbackslash, htext⟩ :=
    Json.escapeChar_cases c
  · rw [htext]
    exact unescape_simple hsimple hu t
  · have hcode := unescape_code (Json.hexWord?_control c.toNat hcontrol) (by omega) t
    rw [Char.ofNat_toNat] at hcode
    rw [htext]
    exact hcode
  · rw [htext]
    exact unescape_plain hbackslash t

/-- The escapes of a string stand for the string. -/
theorem unescape_escape (s : List Char) : unescape (escape s) = some s := by
  induction s with
  | nil => rw [escape, List.flatMap_nil, unescape]
  | cons c s ih => rw [Json.escape_cons, unescape_escapeChar, ih]; rfl

end NeighborSearch.RawJson
