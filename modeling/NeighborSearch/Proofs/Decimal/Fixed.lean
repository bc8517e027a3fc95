import NeighborSearch.Decimal.Fixed
import NeighborSearch.Proofs.Single.TotalOrder
import NeighborSearch.Proofs.Text.Digits

/-!
# What decimals with a fixed number of places say

A text with a fixed number of places says a real number by its digits: together they are the number
of units of the last place that is nearest to the exact value. This file gives

1. nearest natural numbers, where a half goes to the even one, and that a quotient is rounded to
   them;
2. the texts that say a number with a fixed number of places, without a word about how they are
   made, and that magnitudes are rendered as such texts;
3. the real number of the magnitude of a single, and the texts of singles.
-/

namespace NeighborSearch.Decimal

open Text (IsDigits)

/-! ## Nearest natural numbers -/

/-- `n` is the nearest natural number to `x`, and the even one if two are equally near. -/
structure IsNearestEven (x : ℝ) (n : ℕ) : Prop where
  near : |x - n| ≤ 1 / 2
  even : |x - n| = 1 / 2 → Even n

section Nearest

variable {n d : ℕ} {part : ℝ}

theorem isNearestEven_of_lt (hnonneg : 0 ≤ part) (h : part < 1 / 2) :
    IsNearestEven (n + part) n := by
  have hdistance : |(n : ℝ) + part - n| = part := by
    rw [add_sub_cancel_left, abs_of_nonneg hnonneg]
  refine ⟨?_, fun htie => ?_⟩
  · rw [hdistance]
    exact h.le
  · rw [hdistance] at htie
    exact absurd htie h.ne

theorem isNearestEven_of_gt (h : 1 / 2 < part) (hone : part < 1) :
    IsNearestEven (n + part) (n + 1) := by
  have hdistance : |(n : ℝ) + part - (n + 1 : ℕ)| = 1 - part := by
    rw [Nat.cast_succ, add_sub_add_left_eq_sub, abs_sub_comm, abs_of_pos (by linarith)]
  refine ⟨?_, fun htie => ?_⟩
  · rw [hdistance]
    linarith
  · rw [hdistance] at htie
    linarith

/-- A half goes to the even neighbor. -/
theorem isNearestEven_of_half : IsNearestEven (n + 1 / 2) (n + n % 2) := by
  have hdistance : |(n : ℝ) + 1 / 2 - (n + n % 2 : ℕ)| = 1 / 2 := by
    rcases Nat.mod_two_eq_zero_or_one n with hparity | hparity <;> rw [hparity]
    · rw [Nat.add_zero, add_sub_cancel_left, abs_of_pos (by norm_num)]
    · rw [Nat.cast_succ, add_sub_add_left_eq_sub]
      norm_num
  exact ⟨hdistance.le, fun _ => Nat.even_iff.2 (by omega)⟩

/-- A quotient is rounded to the nearest natural number. -/
theorem isNearestEven_roundHalfEven (n : ℕ) (hd : 0 < d) :
    IsNearestEven (n / d) (roundHalfEven n d) := by
  have hd' : (0 : ℝ) < d := by exact_mod_cast hd
  -- the rest of the division is a part of one, and twice that part is compared with one
  obtain ⟨part, hpart⟩ : ∃ part : ℝ, part * d = (n % d : ℕ) :=
    ⟨(n % d : ℕ) / d, div_mul_cancel₀ _ hd'.ne'⟩
  have hx : (n : ℝ) / d = (n / d : ℕ) + part := by
    have hdivision : ((n / d : ℕ) : ℝ) * d + (n % d : ℕ) = n := by
      exact_mod_cast Nat.div_add_mod' n d
    rw [div_eq_iff hd'.ne', add_mul, hpart, hdivision]
  rw [hx]
  unfold roundHalfEven
  dsimp only
  split
  case h_1 hcompare =>
    have hless : 2 * (part * d) < d := by
      rw [hpart]
      exact_mod_cast Nat.compare_eq_lt.1 hcompare
    have hnonneg : 0 ≤ part * d := hpart ▸ Nat.cast_nonneg _
    exact isNearestEven_of_lt (nonneg_of_mul_nonneg_left hnonneg hd') (by nlinarith)
  case h_2 hcompare =>
    have hmore : (d : ℝ) < 2 * (part * d) := by
      rw [hpart]
      exact_mod_cast Nat.compare_eq_gt.1 hcompare
    have hrest : part * d < d := by
      rw [hpart]
      exact_mod_cast Nat.mod_lt n hd
    exact isNearestEven_of_gt (by nlinarith) (by nlinarith)
  case h_3 hcompare =>
    have hsame : 2 * (part * d) = d := by
      rw [hpart]
      exact_mod_cast Nat.compare_eq_eq.1 hcompare
    have hhalf : part = 1 / 2 := by
      apply mul_right_cancel₀ hd'.ne'
      linarith
    rw [hhalf]
    exact isNearestEven_of_half

end Nearest

/-! ## Texts of numbers -/

/-- A text says a number that is not negative with a fixed number of places: some digits, without
zeros in front of others, then a point, then as many digits as there are places; and all these
digits together are the number in units of the last place. -/
def IsFixed (places : ℕ) (x : ℝ) (text : List Char) : Prop :=
  ∃ whole fraction, text = whole ++ '.' :: fraction
    ∧ IsDigits whole ∧ (whole.head? = some '0' → whole = ['0'])
    ∧ fraction.length = places ∧ (∀ c ∈ fraction, c.isDigit = true)
    ∧ IsNearestEven (x * 10 ^ places) (Nat.ofDigitChars 10 (whole ++ fraction) 0)

section Digits

variable {places n : ℕ}

/-- The places hold a number of units that is less than one. -/
theorem length_padDigits (hplaces : 0 < places) (h : n < 10 ^ places) :
    (padDigits places n).length = places := by
  have hlength := (Nat.length_toDigits_le_iff (b := 10) (by decide) hplaces).2 h
  rw [padDigits, List.length_append, List.length_replicate]
  omega

theorem isDigit_of_mem_padDigits {c : Char} (h : c ∈ padDigits places n) : c.isDigit = true := by
  rcases List.mem_append.1 h with h | h
  · rw [List.eq_of_mem_replicate h]
    decide
  · exact (Text.isDigits_toDigits n).digits c h

/-- Digits that are put after others move them to the left. -/
theorem ofDigitChars_eq (s : List Char) (n : ℕ) :
    Nat.ofDigitChars 10 s n = n * 10 ^ s.length + Nat.ofDigitChars 10 s 0 := by
  induction s generalizing n with
  | nil => simp [Nat.ofDigitChars]
  | cons c s ih =>
    rw [Nat.ofDigitChars_cons, Nat.ofDigitChars_cons, ih, ih (10 * 0 + _), List.length_cons,
      Nat.pow_succ]
    ring

theorem ofDigitChars_padDigits (places n : ℕ) : Nat.ofDigitChars 10 (padDigits places n) 0 = n := by
  rw [padDigits, Nat.ofDigitChars_append, Nat.ofDigitChars_replicate_zero, Nat.mul_zero,
    Nat.ofDigitChars_ten_toDigits]

end Digits

namespace Magnitude

/-- The real number of a magnitude. -/
noncomputable def value (x : Magnitude) : ℝ :=
  Single.scaled x.mantissa x.exponent

theorem value_eq (x : Magnitude) : x.value = x.mantissa * 2 ^ x.exponent := by
  rw [value, Single.scaled, Int.cast_natCast]

theorem isNearestEven_toPlaces (places : ℕ) (x : Magnitude) :
    IsNearestEven (x.value * 10 ^ places) (x.toPlaces places) := by
  have hround := isNearestEven_roundHalfEven
    (x.mantissa * 2 ^ x.exponent.toNat * 10 ^ places) (Nat.two_pow_pos (-x.exponent).toNat)
  have hpower : (2 : ℝ) ^ x.exponent = 2 ^ x.exponent.toNat / 2 ^ (-x.exponent).toNat := by
    rw [← zpow_natCast, ← zpow_natCast, ← zpow_sub₀ two_ne_zero]
    congr 1
    omega
  have hvalue : x.value * 10 ^ places
      = (x.mantissa * 2 ^ x.exponent.toNat * 10 ^ places : ℕ) / (2 ^ (-x.exponent).toNat : ℕ) := by
    rw [value_eq, hpower]
    push_cast
    ring
  rw [hvalue]
  exact hround

/-- A magnitude is rendered as a text that says it. -/
theorem isFixed_renderFixed {places : ℕ} (hplaces : 0 < places) (x : Magnitude) :
    IsFixed places x.value (x.renderFixed places) := by
  have hpow : Nat.pow 10 places = 10 ^ places := rfl
  obtain ⟨units, hunits⟩ : ∃ units, units = x.toPlaces places := ⟨_, rfl⟩
  have hless : units % 10 ^ places < 10 ^ places := Nat.mod_lt _ (Nat.pow_pos (by decide))
  have hlength := length_padDigits hplaces hless
  refine ⟨Nat.toDigits 10 (units / 10 ^ places), padDigits places (units % 10 ^ places), ?_,
    Text.isDigits_toDigits _, Text.toDigits_of_head?, hlength,
    fun _ => isDigit_of_mem_padDigits, ?_⟩
  · rw [hunits]
    rfl
  · have hdigits : Nat.ofDigitChars 10 (Nat.toDigits 10 (units / 10 ^ places)
        ++ padDigits places (units % 10 ^ places)) 0 = units := by
      rw [Nat.ofDigitChars_append, Nat.ofDigitChars_ten_toDigits, ofDigitChars_eq, hlength,
        ofDigitChars_padDigits, Nat.div_add_mod']
    rw [hdigits, hunits]
    exact x.isNearestEven_toPlaces places

end Magnitude

/-! ## Texts of singles -/

open Single Float.Model Float.Model.UnpackedFloat

/-- A text says a single with a fixed number of places, with a sign in front if its sign bit is
set. What is not a number has no sign. -/
def IsFixedSingle (places : ℕ) (x : Float32) (text : List Char) : Prop :=
  if x.isNaN then text = ['N', 'a', 'N']
  else ∃ size, text = (if 0x80000000 ≤ x.toBits.toNat then '-' :: size else size)
    ∧ if x.isInf then size = ['i', 'n', 'f'] else IsFixed places |Single.value x| size

theorem unpack_eq (x : Float32) :
    x.toModel.unpack = decoded (signOf x.toBits) (x.toBits.toNat % 0x80000000) := by
  rw [← unpack_ofBits, Float32.ofBits_toBits]

theorem abs_real_finite (s : Sign) (m : ℕ) (e : ℤ) (hm : 0 < m) :
    |real (.finite s m e hm)| = m * 2 ^ e := by
  rw [real_eq, abs_mul, ← Int.cast_abs, abs_apply, abs_of_pos (zpow_pos two_pos e),
    Int.cast_natCast]

/-- The magnitude of a pattern is the number that it stands for, without the sign. -/
theorem value_ofSingleBits {bits : UInt32} (h : bits.toNat % 0x80000000 < 0x7f800000) (s : Sign) :
    (Magnitude.ofSingleBits bits).value = |real (decoded s (bits.toNat % 0x80000000))| := by
  rw [Magnitude.value_eq]
  unfold Magnitude.ofSingleBits Magnitude.ofFields decoded
  have hpow : Nat.pow 2 23 = 0x800000 := rfl
  rw [hpow]
  by_cases hsmall : bits.toNat % 0x80000000 < 0x800000
  · -- there is no implicit bit, and zero is one of these
    have hbiased : bits.toNat / 0x800000 % 0x100 = 0 := by omega
    have hfraction : bits.toNat % 0x800000 = bits.toNat % 0x80000000 := by omega
    rw [if_pos hbiased, hfraction]
    dsimp only
    by_cases hzero : bits.toNat % 0x80000000 = 0
    · rw [dif_pos hzero, hzero, real_zero, abs_zero, Nat.cast_zero, zero_mul]
    · rw [dif_neg hzero, if_pos hsmall, abs_real_finite]
  · have hbiased : ¬bits.toNat / 0x800000 % 0x100 = 0 := by omega
    rw [if_neg hbiased, dif_neg (by omega), if_neg hsmall, if_pos h, abs_real_finite]
    dsimp only
    congr 2 <;> omega

theorem value_magnitude {x : Float32} (hnan : x.isNaN = false) (hinf : x.isInf = false) :
    (Magnitude.ofSingleBits x.toBits).value = |Single.value x| := by
  have hmagnitude : x.toBits.toNat % 0x80000000 < 0x7f800000 := by
    have hle : x.toBits.toNat % 0x80000000 ≤ 0x7f800000 := by
      apply magnitude_le_of_isNaN
      rwa [Float32.ofBits_toBits]
    refine Nat.lt_of_le_of_ne hle fun hinfinite => ?_
    have hunpack : x.toModel.unpack.isInf = false := hinf
    rw [unpack_eq, hinfinite] at hunpack
    cases hunpack
  rw [value_ofSingleBits hmagnitude (signOf x.toBits), Single.value, unpack_eq]

/-- A single is rendered as a text that says it. -/
theorem isFixedSingle_fixedSingle {places : ℕ} (hplaces : 0 < places) (x : Float32) :
    IsFixedSingle places x (fixedSingle places x).toList := by
  unfold IsFixedSingle fixedSingle
  by_cases hnan : x.isNaN = true
  · rw [if_pos hnan, if_pos hnan]
    rfl
  rw [if_neg hnan, if_neg hnan]
  refine ⟨if x.isInf then ['i', 'n', 'f']
    else (Magnitude.ofSingleBits x.toBits).renderFixed places, ?_, ?_⟩
  · rw [String.toList_ofList, isNegativeSingle]
    simp only [decide_eq_true_eq]
  · by_cases hinf : x.isInf = true
    · rw [if_pos hinf, if_pos hinf]
    · rw [if_neg hinf, if_neg hinf,
        ← value_magnitude (Bool.eq_false_iff.2 hnan) (Bool.eq_false_iff.2 hinf)]
      exact Magnitude.isFixed_renderFixed hplaces _

/-- Halves are rounded to an even last digit, and the sign stays when all digits are zeros. -/
example : (fixedSingle 6 0.0078125, fixedSingle 6 0.0234375, fixedSingle 6 (-0.0000001))
    = ("0.007812", "0.023438", "-0.000000") := by
  decide +kernel

end NeighborSearch.Decimal
