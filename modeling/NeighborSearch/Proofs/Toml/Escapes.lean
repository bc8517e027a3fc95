import NeighborSearch.Toml.Style
import NeighborSearch.Toml.Text

/-!
# Escapes in TOML

How a character is written in a string with escapes, and that both readers of such strings take it
back. The quote is left to the strings themselves, because it may also be the delimiter.
-/

namespace NeighborSearch.Toml

/-! ## How characters are written -/

/-- The digits of a code name the character. -/
theorem hexChar?_code : ∀ n ∈ 0x7f :: List.range 0x20,
    Text.hexChar? ['0', '0', hexDigit (n / 16), hexDigit n] = some (Char.ofNat n) := by
  decide

theorem toNat_of_needsCode {c : Char} (h : needsCode c = true) :
    c.toNat ∈ 0x7f :: List.range 0x20 := by
  simp only [needsCode, Bool.or_eq_true, Bool.and_eq_true, decide_eq_true_eq, beq_iff_eq] at h
  obtain h | rfl := h
  · exact List.mem_cons_of_mem _ (List.mem_range.2 h.1.1)
  · exact List.mem_cons_self

/-- A character that needs no code may stand in a string, unless it is a newline. -/
theorem isText_of_not_needsCode {c : Char} (h : needsCode c = false) (hnewline : c ≠ '\n') :
    isText c = true := by
  simp only [needsCode, Bool.or_eq_false_iff, Bool.and_eq_false_iff, decide_eq_false_iff_not,
    bne_eq_false_iff_eq, beq_eq_false_iff_ne] at h
  obtain ⟨(hlow | rfl) | rfl, hdelete⟩ := h
  · simp only [isText, Bool.or_eq_true, Bool.and_eq_true, decide_eq_true_eq, bne_iff_ne]
    exact .inl ⟨Nat.le_of_not_lt hlow, hdelete⟩
  · exact absurd rfl hnewline
  · rfl

/-- How a character is written: after a backslash, by its code, or as it is. -/
theorem escapeChar_cases {c : Char} (hquote : c ≠ '"') (edition : Edition) :
    (∃ e, e ≠ 'u' ∧ e ≠ 'U' ∧ e ≠ 'x' ∧ simpleEscape? edition e = some c
      ∧ escapeChar c = ['\\', e])
    ∨ (∃ a b, Text.hexChar? ['0', '0', a, b] = some c
      ∧ escapeChar c = ['\\', 'u', '0', '0', a, b])
    ∨ (isText c = true ∧ c ≠ '\\' ∧ c ≠ '\n' ∧ c ≠ '\r' ∧ c ≠ '"' ∧ escapeChar c = [c]) := by
  unfold escapeChar
  split
  · exact .inl ⟨'\\', by decide, by decide, by decide, rfl, rfl⟩
  · exact .inl ⟨'b', by decide, by decide, by decide, rfl, rfl⟩
  · exact .inl ⟨'t', by decide, by decide, by decide, rfl, rfl⟩
  · exact .inl ⟨'n', by decide, by decide, by decide, rfl, rfl⟩
  · exact .inl ⟨'f', by decide, by decide, by decide, rfl, rfl⟩
  · exact .inl ⟨'r', by decide, by decide, by decide, rfl, rfl⟩
  · next hbackslash _ _ hnewline _ hreturn =>
    right
    cases hcode : needsCode c with
    | true =>
      have hdigits := hexChar?_code c.toNat (toNat_of_needsCode hcode)
      rw [Char.ofNat_toNat] at hdigits
      exact .inl ⟨_, _, hdigits, if_pos rfl⟩
    | false =>
      exact .inr ⟨isText_of_not_needsCode hcode hnewline, hbackslash, hnewline, hreturn, hquote,
        if_neg Bool.false_ne_true⟩

/-- What stands for a character starts neither with a quote nor with a newline. -/
theorem escapeChar_start {c : Char} (hquote : c ≠ '"') :
    ∃ e t, escapeChar c = e :: t ∧ e ≠ '"' ∧ e ≠ '\n' ∧ e ≠ '\r' := by
  obtain ⟨e, _, _, _, _, htext⟩ | ⟨a, b, _, htext⟩ | ⟨_, _, hnewline, hreturn, _, htext⟩ :=
    escapeChar_cases hquote .v10
  · exact ⟨_, _, htext, by decide, by decide, by decide⟩
  · exact ⟨_, _, htext, by decide, by decide, by decide⟩
  · exact ⟨_, _, htext, hquote, hnewline, hreturn⟩

/-! ## Reading them in a string of one line -/

section

variable {edition : Edition}

theorem readBasic_simple {e c : Char} (hu : e ≠ 'u') (hU : e ≠ 'U') (hx : e ≠ 'x')
    (h : simpleEscape? edition e = some c) (t : List Char) :
    readBasic edition ('\\' :: e :: t) = (readBasic edition t).cons c := by
  rw [readBasic, h]
  all_goals
    intros
    simp_all

theorem readBasic_code {a b x y c : Char} (h : Text.hexChar? [a, b, x, y] = some c)
    (t : List Char) :
    readBasic edition ('\\' :: 'u' :: a :: b :: x :: y :: t) = (readBasic edition t).cons c := by
  rw [readBasic, h]

theorem readBasic_plain {c : Char} (htext : isText c = true) (hbackslash : c ≠ '\\')
    (hquote : c ≠ '"') (t : List Char) :
    readBasic edition (c :: t) = (readBasic edition t).cons c := by
  rw [readBasic, if_pos ⟨htext, hbackslash⟩]
  all_goals
    intros
    simp_all

theorem readBasic_escapeChar {c : Char} (hquote : c ≠ '"') (t : List Char) :
    readBasic edition (escapeChar c ++ t) = (readBasic edition t).cons c := by
  obtain ⟨e, hu, hU, hx, hsimple, htext⟩ | ⟨a, b, hcode, htext⟩
      | ⟨hplain, hbackslash, _, _, _, htext⟩ := escapeChar_cases hquote edition
  · rw [htext]
    exact readBasic_simple hu hU hx hsimple t
  · rw [htext]
    exact readBasic_code hcode t
  · rw [htext]
    exact readBasic_plain hplain hbackslash hquote t

end

/-! ## Reading them in a string of several lines -/

section

variable {dialect : Dialect}

theorem readMultiBasic_simple {e c : Char} (hu : e ≠ 'u') (hU : e ≠ 'U') (hx : e ≠ 'x')
    (h : simpleEscape? dialect.edition e = some c) (t : List Char) :
    readMultiBasic dialect false ('\\' :: e :: t) = (readMultiBasic dialect false t).cons c := by
  rw [readMultiBasic, h]
  all_goals
    intros
    simp_all

theorem readMultiBasic_code {a b x y c : Char} (h : Text.hexChar? [a, b, x, y] = some c)
    (t : List Char) :
    readMultiBasic dialect false ('\\' :: 'u' :: a :: b :: x :: y :: t)
      = (readMultiBasic dialect false t).cons c := by
  rw [readMultiBasic, h]

theorem readMultiBasic_plain {c : Char} (htext : isText c = true ∨ c = '\n')
    (hbackslash : c ≠ '\\') (hreturn : c ≠ '\r') {t : List Char}
    (hquotes : c = '"' → ∀ rest, t ≠ '"' :: '"' :: rest) :
    readMultiBasic dialect false (c :: t) = (readMultiBasic dialect false t).cons c := by
  rw [readMultiBasic, if_neg (fun h => Bool.false_ne_true h.1), if_pos ⟨htext, hbackslash⟩]
  all_goals
    intros
    simp_all

theorem readMultiBasic_escapeChar {c : Char} (hquote : c ≠ '"') (t : List Char) :
    readMultiBasic dialect false (escapeChar c ++ t)
      = (readMultiBasic dialect false t).cons c := by
  obtain ⟨e, hu, hU, hx, hsimple, htext⟩ | ⟨a, b, hcode, htext⟩
      | ⟨hplain, hbackslash, _, hreturn, _, htext⟩ := escapeChar_cases hquote dialect.edition
  · rw [htext]
    exact readMultiBasic_simple hu hU hx hsimple t
  · rw [htext]
    exact readMultiBasic_code hcode t
  · rw [htext]
    exact readMultiBasic_plain (.inl hplain) hbackslash hreturn fun h => absurd h hquote

end

end NeighborSearch.Toml
