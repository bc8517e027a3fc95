import NeighborSearch.Text.Width

/-!
# Laws of the display width

A sign that turns a letter into one without a column takes that column away again, and so do some
letters of flags. They only do so where there is a column to take away: `natCast_width` says that
the columns of a text are never negative. A text that makes no context keeps its columns behind any
other text (`measure_append`).
-/

namespace NeighborSearch.Text

/-! ## No text is narrower than nothing -/

/-- The Khmer letters with a subscript form take one column on their own. -/
theorem charWidth_of_isSubscriptLetter {c : Char} (h : isSubscriptLetter c) : charWidth c = 1 := by
  have bound : 0x1780 ≤ c.toNat ∧ c.toNat ≤ 0x17af ∧ c.toNat ≠ 0x17a4 := by
    simp only [isSubscriptLetter, subscriptRanges, inRanges, List.any_cons, List.any_nil,
      Bool.or_eq_true, Bool.and_eq_true, decide_eq_true_eq, Bool.false_eq_true, or_false] at h
    omega
  have narrow : ∀ n < 48, n ≠ 0x24 → inRanges zeroWidthRanges (0x1780 + n) = false
      ∧ inRanges wideRanges (0x1780 + n) = false := by decide +kernel
  obtain ⟨n, hn⟩ := Nat.exists_eq_add_of_le bound.1
  have := narrow n (by omega) (by omega)
  rw [← hn] at this
  unfold charWidth
  rw [if_neg (by omega), if_neg (by omega), this.1, this.2]
  rfl

/-- The columns that a text takes at least when it begins so. -/
def Start.least : Start → Int
  | letter .subscriptLetter _ | letter .boundConsonant _ | joinedFlagLetter | joinedOddFlags => 1
  | _ => 0

theorem Start.least_nonneg (start : Start) : 0 ≤ start.least := by
  unfold least
  split <;> decide

theorem Start.least_letter (l : Letter) (j j' : Bool) :
    (Start.letter l j).least = (Start.letter l j').least := by
  cases l <;> rfl

theorem Letter.least_le_of_bind? {c : Char} {l : Letter} {j : Bool} {n : Int} {start : Start}
    (h : l.bind? c j = some (n, start)) : start.least ≤ n + (Start.letter l j).least := by
  cases l <;> cases j <;> simp only [Letter.bind?] at h <;> grind [Start.least]

theorem Start.least_le_of_bind? {c : Char} {s start : Start} {n : Int}
    (h : s.bind? c = some (n, start)) : start.least ≤ n + s.least := by
  cases s with
  | letter l j =>
    simp only [Start.bind?] at h
    split at h
    · obtain ⟨rfl, rfl⟩ := h
      simp [Start.least_letter l true j]
    · split at h
      · obtain ⟨rfl, rfl⟩ := h
        simp
      · exact Letter.least_le_of_bind? h
  | _ =>
    simp only [Start.bind?, tagLetter?] at h
    grind [Start.least]

theorem Start.least_ofChar_le (c : Char) : (Start.ofChar c).least ≤ charWidth c := by
  unfold Start.ofChar
  by_cases h : isSubscriptLetter c
  · rw [charWidth_of_isSubscriptLetter h]
    grind [Start.least]
  · grind [Start.least]

theorem Context.least_withoutSelector_le (context : Context) :
    context.withoutSelector.start.least ≤ context.start.least := by
  have := context.start.least_nonneg
  unfold withoutSelector
  split
  · split
    · exact Int.le_refl _
    · exact this
  · exact Int.le_refl _

theorem Context.least_select_le (context : Context) (selector : Selector) :
    (context.select selector).start.least ≤ context.start.least := by
  have := context.start.least_nonneg
  unfold select
  split
  · exact Int.le_refl _
  · exact this

/-- A text takes the columns that its start promises, whatever is placed in front. -/
theorem least_place_le (c : Char) (context : Context) :
    (place c context).2.start.least ≤ (place c context).1 + context.start.least := by
  have nonneg := context.start.least_nonneg
  have left := context.least_withoutSelector_le
  unfold place
  split
  · next placed h =>
    unfold Context.styled? at h
    grind [Start.least]
  · split
    · exact Int.add_nonneg (by decide) nonneg
    · split
      · next selector _ =>
        have := context.withoutSelector.least_select_le selector
        simp only
        omega
      · split
        · next h => have := Start.least_le_of_bind? h; simp only; omega
        · have := Start.least_ofChar_le c
          simp only
          omega

theorem least_measure_le (s : List Char) : (measure s).2.start.least ≤ (measure s).1 := by
  induction s with
  | nil => exact Int.le_refl _
  | cons c rest ih =>
    have := least_place_le c (measure rest).2
    simp only [measure]
    omega

/-- No text takes less than nothing, so `width` loses nothing. -/
theorem natCast_width (s : List Char) : (width s : Int) = (measure s).1 :=
  Int.toNat_of_nonneg <|
    Int.le_trans (Start.least_nonneg _) (least_measure_le s)

/-! ## Texts one after the other -/

/-- A text that forms nothing with what precedes it adds its own columns. -/
theorem measure_append {s t : List Char} (h : (measure t).2 = {}) :
    measure (s ++ t) = ((measure s).1 + (measure t).1, (measure s).2) := by
  induction s with
  | nil => simp [measure, ← h]
  | cons c rest ih => simp [measure, ih, Int.add_assoc]

theorem place_blank (context : Context) : place ' ' context = (1, {}) := by
  have h : context.styled? ' ' = none := by
    unfold Context.styled?
    split
    · rfl
    · rw [if_neg (by decide)]
    · rw [if_neg (by decide)]
    · rw [if_neg (by decide)]
  unfold place
  rw [h]
  rfl

/-- A text that begins with a blank forms nothing with what precedes it. -/
theorem measure_blank_cons (s : List Char) : (measure (' ' :: s)).2 = {} := by
  simp [measure, place_blank]

end NeighborSearch.Text
