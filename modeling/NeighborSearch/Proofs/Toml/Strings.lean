import NeighborSearch.Proofs.Toml.Escapes

/-!
# Strings in TOML

Every string is read back from the style in which it is written, in every dialect, as long as no
quote follows it. In the styles of several lines the argument is about runs of quotes: at most two
of them are written in a row, so the first three quotes that are read close the string, and what is
left of a run at its end belongs to the text.
-/

namespace NeighborSearch.Toml

/-- Whether a text starts with a quote of a kind. -/
def StartsWith (quote : Char) (rest : List Char) : Prop :=
  rest.head? = some quote

/-! ## Strings of one line -/

/-- A basic string holds every text. -/
theorem readBasic_escape (edition : Edition) (s rest : List Char) :
    readBasic edition (escape false 0 s ++ '"' :: rest) = some (s, rest) := by
  induction s with
  | nil => rw [escape, List.nil_append, readBasic]
  | cons c s ih =>
    rw [escape]
    by_cases hquote : c = '"'
    · subst hquote
      rw [if_pos rfl, if_neg (fun h => Bool.false_ne_true h.1), List.cons_append, List.cons_append,
        readBasic_simple (by decide) (by decide) (by decide) rfl, ih]
      rfl
    · rw [if_neg hquote, if_neg (fun h => Bool.false_ne_true h.1), List.append_assoc,
        readBasic_escapeChar hquote, ih]
      rfl

theorem readLiteral_plain {s : List Char} (hs : ∀ c ∈ s, isText c = true ∧ c ≠ '\'')
    (rest : List Char) : readLiteral (s ++ '\'' :: rest) = some (s, rest) := by
  induction s with
  | nil => rw [List.nil_append, readLiteral]
  | cons c s ih =>
    obtain ⟨⟨htext, hquote⟩, hrest⟩ := List.forall_mem_cons.1 hs
    rw [List.cons_append, readLiteral, if_pos htext, ih hrest]
    · rfl
    · exact hquote

/-! ## Strings of several lines -/

/-- Of the quotes that follow three closing ones, up to two belong to the text. -/
theorem closeRun_replicate {quote : Char} {rest : List Char} (hrest : ¬StartsWith quote rest)
    {n : Nat} (hn : n ≤ greatestRun) :
    closeRun quote (List.replicate n quote ++ rest) = (List.replicate n quote, rest) := by
  have hhead : ∀ a more, rest = a :: more → a ≠ quote := by
    rintro a more rfl rfl
    exact hrest rfl
  match n, rest with
  | 0, [] => rfl
  | 0, [a] => exact if_neg (hhead a [] rfl)
  | 0, a :: b :: more => exact if_neg (hhead a (b :: more) rfl)
  | 1, [] => simp [closeRun]
  | 1, a :: more => simp [closeRun, hhead a more rfl]
  | 2, _ => simp [closeRun]
  | n + 3, _ => exact absurd hn (by simp [greatestRun])

/-- A text with escapes starts with a quote only where a run of quotes may go on. -/
theorem escape_start {multi : Bool} {run : Nat} {c : Char}
    (h : c ≠ '"' ∨ ¬(multi = true ∧ run < greatestRun)) (s : List Char) :
    ∃ e t, escape multi run (c :: s) = e :: t ∧ e ≠ '"' := by
  rw [escape]
  by_cases hquote : c = '"'
  · rw [if_pos hquote, if_neg (h.resolve_left (not_not_intro hquote))]
    exact ⟨_, _, rfl, by decide⟩
  · rw [if_neg hquote]
    split
    · exact ⟨_, _, rfl, hquote⟩
    · obtain ⟨e, t, htext, he, _, _⟩ := escapeChar_start hquote
      rw [htext]
      exact ⟨e, _, rfl, he⟩

section

variable {dialect : Dialect} {rest : List Char}

/-- A multi-line basic string holds every text. -/
theorem readMultiBasic_escape (hrest : ¬StartsWith '"' rest) (s : List Char) {run : Nat}
    (hrun : run ≤ greatestRun) :
    readMultiBasic dialect false (escape true run s ++ '"' :: '"' :: '"' :: rest)
      = some (s, rest) := by
  have hclose : ∀ n ≤ greatestRun, readMultiBasic dialect false
      ('"' :: '"' :: '"' :: (List.replicate n '"' ++ rest))
        = some (List.replicate n '"', rest) := by
    intro n hn
    rw [readMultiBasic, closeRun_replicate hrest hn]
  induction s generalizing run with
  | nil => exact hclose 0 (Nat.zero_le _)
  | cons c s ih =>
    by_cases hquote : c = '"'
    · subst hquote
      by_cases hfull : run < greatestRun
      · -- the quote stands as it is: it closes the string only together with the delimiter
        have hnext := @ih (run + 1) hfull
        rw [escape, if_pos rfl, if_pos ⟨rfl, hfull⟩, List.cons_append]
        have hplain (h : ∀ t, escape true (run + 1) s ++ '"' :: '"' :: '"' :: rest
            ≠ '"' :: '"' :: t) :
            readMultiBasic dialect false
              ('"' :: (escape true (run + 1) s ++ '"' :: '"' :: '"' :: rest))
              = some ('"' :: s, rest) := by
          rw [readMultiBasic_plain (.inl rfl) (by decide) (by decide) fun _ => h, hnext]
          rfl
        cases s with
        | nil => exact hclose 1 (by decide)
        | cons d s =>
          by_cases hstop : d ≠ '"' ∨ ¬(true = true ∧ run + 1 < greatestRun)
          · obtain ⟨e, t, htext, he⟩ := escape_start hstop s
            refine hplain fun t h => ?_
            rw [htext] at h
            exact he (List.cons.inj h).1
          · obtain ⟨hd, hrun'⟩ := not_or.1 hstop
            obtain rfl : d = '"' := Classical.not_not.1 hd
            obtain rfl : run = 0 := by
              have := (Classical.not_not.1 hrun').2
              simp only [greatestRun] at this
              omega
            cases s with
            | nil => exact hclose 2 (by decide)
            | cons d s =>
              have hfull : d ≠ '"' ∨ ¬(true = true ∧ 2 < greatestRun) :=
                .inr fun h => absurd h.2 (by decide)
              obtain ⟨e, t, htext, he⟩ := escape_start hfull s
              refine hplain fun t h => ?_
              rw [escape, if_pos rfl, if_pos ⟨rfl, by decide⟩, htext] at h
              exact he (List.cons.inj (List.cons.inj h).2).1
      · -- the quote is escaped, and a new run may start after it
        have hnext := @ih 0 (Nat.zero_le _)
        rw [escape, if_pos rfl, if_neg (fun h => hfull h.2), List.cons_append, List.cons_append,
          readMultiBasic_simple (by decide) (by decide) (by decide) rfl, hnext]
        rfl
    · have hnext := @ih 0 (Nat.zero_le _)
      rw [escape, if_neg hquote]
      by_cases hnewline : c = '\n'
      · rw [if_pos ⟨rfl, hnewline⟩, List.cons_append,
          readMultiBasic_plain (.inr hnewline) (by rw [hnewline]; decide) (by rw [hnewline]; decide)
            (fun h => absurd h hquote), hnext]
        rfl
      · rw [if_neg (fun h => hnewline h.2), List.append_assoc, readMultiBasic_escapeChar hquote,
          hnext]
        rfl

/-- A run of quotes of a text is no longer than the longest one. -/
theorem run_le_longestRun (quote : Char) (run : Nat) (s : List Char) :
    run ≤ longestRun quote run s := by
  induction s generalizing run with
  | nil => exact Nat.le_refl run
  | cons c s ih =>
    rw [longestRun]
    split
    · exact Nat.le_trans (Nat.le_succ run) (ih (run + 1))
    · exact Nat.le_max_left _ _

theorem readMultiLiteral_cons {c : Char} (htext : isText c = true ∨ c = '\n') (hreturn : c ≠ '\r')
    {t : List Char} (hquotes : c = '\'' → ∀ rest, t ≠ '\'' :: '\'' :: rest) :
    readMultiLiteral dialect (c :: t) = (readMultiLiteral dialect t).cons c := by
  rw [readMultiLiteral, if_pos htext]
  all_goals
    intros
    simp_all

/-- A multi-line literal string holds a text whose runs of quotes are short. -/
theorem readMultiLiteral_plain (hrest : ¬StartsWith '\'' rest) {s : List Char}
    (hs : ∀ c ∈ s, (isText c = true ∨ c = '\n') ∧ c ≠ '\r') {run : Nat}
    (hrun : longestRun '\'' run s ≤ greatestRun) :
    readMultiLiteral dialect (s ++ '\'' :: '\'' :: '\'' :: rest) = some (s, rest) := by
  have hclose : ∀ n ≤ greatestRun, readMultiLiteral dialect
      ('\'' :: '\'' :: '\'' :: (List.replicate n '\'' ++ rest))
        = some (List.replicate n '\'', rest) := by
    intro n hn
    rw [readMultiLiteral, closeRun_replicate hrest hn]
  induction s generalizing run with
  | nil => exact hclose 0 (Nat.zero_le _)
  | cons c s ih =>
    obtain ⟨⟨htext, hreturn⟩, hs'⟩ := List.forall_mem_cons.1 hs
    rw [longestRun] at hrun
    by_cases hquote : c = '\''
    · subst hquote
      rw [if_pos rfl] at hrun
      have hnext := ih hs' hrun
      have hplain (h : ∀ t, s ++ '\'' :: '\'' :: '\'' :: rest ≠ '\'' :: '\'' :: t) :
          readMultiLiteral dialect ('\'' :: s ++ '\'' :: '\'' :: '\'' :: rest)
            = some ('\'' :: s, rest) := by
        rw [List.cons_append, readMultiLiteral_cons htext hreturn fun _ => h, hnext]
        rfl
      match s with
      | [] => exact hclose 1 (by decide)
      | d :: s =>
        by_cases hd : d = '\''
        · subst hd
          match s with
          | [] => exact hclose 2 (by decide)
          | e :: s =>
            -- a third quote would make the run longer than it may be
            have he : e ≠ '\'' := by
              rintro rfl
              rw [longestRun, if_pos rfl, longestRun, if_pos rfl] at hrun
              have := run_le_longestRun '\'' (run + 1 + 1 + 1) s
              simp only [greatestRun] at hrun
              omega
            exact hplain fun t h => he (List.cons.inj (List.cons.inj h).2).1
        · exact hplain fun t h => hd (List.cons.inj h).1
    · rw [if_neg hquote] at hrun
      have hnext := ih hs' (Nat.le_trans (Nat.le_max_right _ _) hrun)
      rw [List.cons_append, readMultiLiteral_cons htext hreturn (fun h => absurd h hquote), hnext]
      rfl

end

/-! ## Strings in the style that is chosen -/

/-- A style is chosen because it can hold the text, or it has escapes. -/
theorem holds_or_hasEscapes (s : List Char) :
    (Style.choose s).holds s = true ∨ (Style.choose s).hasEscapes = true := by
  unfold Style.choose
  split
  · next style hfound =>
    have hholds := List.find?_some hfound
    exact .inl hholds
  · split <;> exact .inr rfl

theorem not_needsCode_of_holds {style : Style} {s : List Char} (h : style.holds s = true) :
    ∀ c ∈ s, needsCode c = false := by
  have hcodes := (Bool.and_eq_true_iff.1 h).1
  rw [Bool.not_eq_true', List.any_eq_false] at hcodes
  exact fun c hc => Bool.eq_false_iff.2 (hcodes c hc)

/-- A carriage return needs a code. -/
theorem ne_return_of_not_needsCode {c : Char} (h : needsCode c = false) : c ≠ '\r' := by
  rintro rfl
  exact absurd h (by decide)

theorem dropNewline_of_start {c : Char} (hnewline : c ≠ '\n') (hreturn : c ≠ '\r')
    (t : List Char) : dropNewline (c :: t) = c :: t := by
  unfold dropNewline
  split
  · next h => exact absurd (List.cons.inj h).1 hnewline
  · next h => exact absurd (List.cons.inj h).1 hreturn
  · rfl

section

variable {dialect : Dialect} {rest : List Char}

theorem readString_basic (hrest : ¬StartsWith '"' rest) (s : List Char) :
    readString dialect (Style.basic.write s ++ rest) = some (s, rest) := by
  have htext : Style.basic.write s ++ rest = '"' :: (escape false 0 s ++ '"' :: rest) := by
    simp [Style.write, Style.delimiter, Style.isMulti, Style.hasEscapes]
  rw [htext, readString, readBasic_escape]
  intro t h
  match s with
  | [] => exact hrest (by rw [StartsWith, (List.cons.inj h).2]; rfl)
  | c :: s =>
    have hsingle : c ≠ '"' ∨ ¬(false = true ∧ 0 < greatestRun) :=
      .inr fun h => Bool.false_ne_true h.1
    obtain ⟨e, u, hstart, he⟩ := escape_start hsingle s
    rw [hstart] at h
    exact he (List.cons.inj h).1

theorem readString_literal (hrest : ¬StartsWith '\'' rest) {s : List Char}
    (hs : Style.literal.holds s = true) :
    readString dialect (Style.literal.write s ++ rest) = some (s, rest) := by
  have htext : Style.literal.write s ++ rest = '\'' :: (s ++ '\'' :: rest) := by
    simp [Style.write, Style.delimiter, Style.isMulti, Style.hasEscapes]
  have hothers : '\'' ∉ s ∧ '\n' ∉ s := by
    simpa [List.contains_iff_mem] using (Bool.and_eq_true_iff.1 hs).2
  have hplain : ∀ c ∈ s, isText c = true ∧ c ≠ '\'' := by
    intro c hc
    refine ⟨isText_of_not_needsCode (not_needsCode_of_holds hs c hc) ?_, ?_⟩
    · exact fun h => hothers.2 (h ▸ hc)
    · exact fun h => hothers.1 (h ▸ hc)
  rw [htext, readString, readLiteral_plain hplain]
  intro t h
  match s with
  | [] => exact hrest (by rw [StartsWith, (List.cons.inj h).2]; rfl)
  | c :: s => exact (hplain c List.mem_cons_self).2 (List.cons.inj h).1

/-- A string of several lines starts on a line of its own if it has several, and elsewhere it does
not start with a newline. -/
theorem readString_multiBasic (hrest : ¬StartsWith '"' rest) (s : List Char) :
    readString dialect (Style.multiBasic.write s ++ rest) = some (s, rest) := by
  have hread : readMultiBasic dialect false (escape true 0 s ++ '"' :: '"' :: '"' :: rest)
      = some (s, rest) := readMultiBasic_escape hrest s (Nat.zero_le greatestRun)
  by_cases hnewline : s.contains '\n' = true
  · have htext : Style.multiBasic.write s ++ rest
        = '"' :: '"' :: '"' :: '\n' :: (escape true 0 s ++ '"' :: '"' :: '"' :: rest) := by
      simp only [Style.write, Style.delimiter, Style.isMulti, Style.hasEscapes, hnewline]
      simp
    rw [htext, readString, dropNewline, hread]
  · have htext : Style.multiBasic.write s ++ rest
        = '"' :: '"' :: '"' :: (escape true 0 s ++ '"' :: '"' :: '"' :: rest) := by
      simp only [Style.write, Style.delimiter, Style.isMulti, Style.hasEscapes, hnewline]
      simp
    have hdrop : dropNewline (escape true 0 s ++ '"' :: '"' :: '"' :: rest)
        = escape true 0 s ++ '"' :: '"' :: '"' :: rest := by
      match s with
      | [] => rfl
      | c :: s =>
        rw [escape]
        by_cases hquote : c = '"'
        · rw [if_pos hquote, if_pos ⟨rfl, by decide⟩, hquote]
          exact dropNewline_of_start (by decide) (by decide) _
        · have hc : c ≠ '\n' := by
            rintro rfl
            exact hnewline (List.contains_iff_mem.2 List.mem_cons_self)
          obtain ⟨e, t, hstart, _, he⟩ := escapeChar_start hquote
          rw [if_neg hquote, if_neg (fun h => hc h.2), hstart]
          exact dropNewline_of_start he.1 he.2 _
    rw [htext, readString, hdrop, hread]

theorem readString_multiLiteral (hrest : ¬StartsWith '\'' rest) {s : List Char}
    (hs : Style.multiLiteral.holds s = true) :
    readString dialect (Style.multiLiteral.write s ++ rest) = some (s, rest) := by
  have hcodes := not_needsCode_of_holds hs
  have hruns : longestRun '\'' 0 s ≤ greatestRun :=
    of_decide_eq_true (Bool.and_eq_true_iff.1 hs).2
  have hplain : ∀ c ∈ s, (isText c = true ∨ c = '\n') ∧ c ≠ '\r' := by
    intro c hc
    refine ⟨?_, ne_return_of_not_needsCode (hcodes c hc)⟩
    by_cases hnewline : c = '\n'
    · exact .inr hnewline
    · exact .inl (isText_of_not_needsCode (hcodes c hc) hnewline)
  have hread : readMultiLiteral dialect (s ++ '\'' :: '\'' :: '\'' :: rest) = some (s, rest) :=
    readMultiLiteral_plain hrest hplain hruns
  by_cases hnewline : s.contains '\n' = true
  · have htext : Style.multiLiteral.write s ++ rest
        = '\'' :: '\'' :: '\'' :: '\n' :: (s ++ '\'' :: '\'' :: '\'' :: rest) := by
      simp only [Style.write, Style.delimiter, Style.isMulti, Style.hasEscapes, hnewline]
      simp
    rw [htext, readString, dropNewline, hread]
  · have htext : Style.multiLiteral.write s ++ rest
        = '\'' :: '\'' :: '\'' :: (s ++ '\'' :: '\'' :: '\'' :: rest) := by
      simp only [Style.write, Style.delimiter, Style.isMulti, Style.hasEscapes, hnewline]
      simp
    have hdrop : dropNewline (s ++ '\'' :: '\'' :: '\'' :: rest)
        = s ++ '\'' :: '\'' :: '\'' :: rest := by
      match s with
      | [] => rfl
      | c :: s =>
        have hc : c ≠ '\n' := by
          rintro rfl
          exact hnewline (List.contains_iff_mem.2 List.mem_cons_self)
        exact dropNewline_of_start hc (hplain c List.mem_cons_self).2 _
    rw [htext, readString, hdrop, hread]

/-- Every string is read back from the style it is written in. -/
theorem readString_quote (hdouble : ¬StartsWith '"' rest) (hsingle : ¬StartsWith '\'' rest)
    (s : String) : readString dialect (quote s ++ rest) = some (s.toList, rest) := by
  have hstyle := holds_or_hasEscapes s.toList
  unfold quote
  generalize Style.choose s.toList = style at hstyle
  cases style with
  | basic => exact readString_basic hdouble s.toList
  | multiBasic => exact readString_multiBasic hdouble s.toList
  | literal => exact readString_literal hsingle (hstyle.resolve_right Bool.false_ne_true)
  | multiLiteral => exact readString_multiLiteral hsingle (hstyle.resolve_right Bool.false_ne_true)

end

end NeighborSearch.Toml
