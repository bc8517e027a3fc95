import NeighborSearch.Text.Split

/-!
# Pieces of a text

A text that is put together from pieces without separators comes apart into these pieces.
-/

namespace NeighborSearch.Text

/-- A text is cut at a separator into the pieces before it and those after it. -/
theorem splitOn_append (separator : Char) (s t : List Char) :
    splitOn separator (s ++ separator :: t) = splitOn separator s ++ splitOn separator t := by
  induction s with
  | nil => simp [splitOn]
  | cons c s ih =>
    rw [List.cons_append, splitOn, splitOn, ih]
    split
    · rfl
    · cases h : splitOn separator s with
      | nil => exact absurd h (splitOn_ne_nil separator s)
      | cons piece pieces => rfl

/-- A text without separators is one piece. -/
theorem splitOn_of_not_mem {separator : Char} {s : List Char} (h : separator ∉ s) :
    splitOn separator s = [s] := by
  induction s with
  | nil => rfl
  | cons c s ih =>
    rw [List.mem_cons, not_or] at h
    obtain ⟨hc, hs⟩ := h
    rw [splitOn, if_neg (Ne.symm hc), ih hs]

/-- Pieces that are put together with separators come apart again. -/
theorem splitOn_intercalate {separator : Char} {pieces : List (List Char)} (hne : pieces ≠ [])
    (h : ∀ piece ∈ pieces, separator ∉ piece) :
    splitOn separator ([separator].intercalate pieces) = pieces := by
  induction pieces with
  | nil => exact absurd rfl hne
  | cons piece pieces ih =>
    obtain ⟨hpiece, hrest⟩ := List.forall_mem_cons.1 h
    match pieces with
    | [] => rw [List.intercalate_singleton, splitOn_of_not_mem hpiece]
    | next :: pieces =>
      rw [List.intercalate_cons_cons, List.append_assoc, List.singleton_append, splitOn_append,
        splitOn_of_not_mem hpiece, ih (List.cons_ne_nil next pieces) hrest]
      rfl

end NeighborSearch.Text
