import Mathlib.Data.List.Basic
import Mathlib.Data.List.TakeWhile

/-!
# Runs of characters, and decimal digits

Readers take the longest run of characters of a kind. What was written as such a run is taken as a
whole as soon as the text after it starts differently.
-/

namespace NeighborSearch.Text

/-! ## Runs -/

/-- Whether a text starts with a character of a kind. -/
def startsWith (kind : Char → Bool) (s : List Char) : Bool :=
  s.head?.any kind

theorem startsWith_cons (kind : Char → Bool) (c : Char) (s : List Char) :
    startsWith kind (c :: s) = kind c := rfl

theorem takeWhile_of_startsWith {kind : Char → Bool} {rest : List Char}
    (h : startsWith kind rest = false) : rest.takeWhile kind = [] := by
  cases rest with
  | nil => rfl
  | cons c rest =>
    rw [startsWith_cons] at h
    exact List.takeWhile_cons_of_neg (by rw [h]; decide)

theorem dropWhile_of_startsWith {kind : Char → Bool} {rest : List Char}
    (h : startsWith kind rest = false) : rest.dropWhile kind = rest := by
  cases rest with
  | nil => rfl
  | cons c rest =>
    rw [startsWith_cons] at h
    exact List.dropWhile_cons_of_neg (by rw [h]; decide)

/-- A run is taken up to the first character of another kind. -/
theorem takeWhile_run {kind : Char → Bool} {run rest : List Char} (hrun : ∀ c ∈ run, kind c = true)
    (hrest : startsWith kind rest = false) : (run ++ rest).takeWhile kind = run := by
  rw [List.takeWhile_append_of_pos hrun, takeWhile_of_startsWith hrest, List.append_nil]

/-- What follows a run starts with the first character of another kind. -/
theorem dropWhile_run {kind : Char → Bool} {run rest : List Char} (hrun : ∀ c ∈ run, kind c = true)
    (hrest : startsWith kind rest = false) : (run ++ rest).dropWhile kind = rest := by
  rw [List.dropWhile_append_of_pos hrun, dropWhile_of_startsWith hrest]

/-! ## Digits -/

/-- A run of decimal digits that is not empty. -/
structure IsDigits (s : List Char) : Prop where
  nonempty : s ≠ []
  digits : ∀ c ∈ s, c.isDigit = true

theorem isDigits_toDigits (n : Nat) : IsDigits (Nat.toDigits 10 n) :=
  ⟨Nat.toDigits_ne_nil, fun _ h => Nat.isDigit_of_mem_toDigits (by decide) (by decide) h⟩

/-- The digits of a number have its value. -/
theorem foldl_toDigits (n : Nat) :
    (Nat.toDigits 10 n).foldl (fun m c => m * 10 + (c.toNat - '0'.toNat)) 0 = n := by
  have h := Nat.ofDigitChars_ten_toDigits (n := n)
  rw [Nat.ofDigitChars_eq_foldl] at h
  simpa only [Nat.mul_comm 10] using h

/-- A number that is not zero does not start with a zero. -/
theorem head?_toDigits {n : Nat} (h : 0 < n) : (Nat.toDigits 10 n).head? ≠ some '0' := by
  induction n using Nat.strongRecOn with
  | ind n ih =>
    by_cases hn : n < 10
    · rw [Nat.toDigits_of_lt_base hn]
      intro hzero
      have : n = 0 := Nat.digitChar_eq_zero.1 (Option.some.inj hzero)
      omega
    · rw [Nat.toDigits_of_base_le (by decide) (by omega),
        List.head?_append_of_ne_nil _ Nat.toDigits_ne_nil]
      exact ih (n / 10) (by omega) (by omega)

/-- Only the number zero starts with a zero, and it has no other digit. -/
theorem toDigits_of_head? {n : Nat} (h : (Nat.toDigits 10 n).head? = some '0') :
    Nat.toDigits 10 n = ['0'] := by
  have hn : n = 0 := by
    by_contra hn
    exact head?_toDigits (by omega) h
  rw [hn]
  rfl

end NeighborSearch.Text
