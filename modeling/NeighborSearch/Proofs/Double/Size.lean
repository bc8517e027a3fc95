import NeighborSearch.Json.Number
import NeighborSearch.Proofs.Single.Rounding

/-!
# The size of doubles

A product of doubles overflows only if it is large, and for this it is enough to know where the
first bits of its factors stand. This file gives

1. the size of a mantissa from which bits are dropped;
2. rounding, which adds at most one bit to a size;
3. packing, which keeps sizes that are far from overflowing;
4. the doubles that numerals are made of: 64-bit integers, powers of ten and their products.
-/

namespace NeighborSearch.Double

open Float.Model Float.Model.UnpackedFloat

variable {b c e : Int} {m : Nat} {s : Sign} {accuracy : Accuracy} {u v : UnpackedFloat}

/-- Whether a value is a number whose size is below `2 ^ b`. -/
def Below (b : Int) : UnpackedFloat → Bool
  | .finite _ m e _ => decide (m.log2 + e < b)
  | .zero _ => true
  | .infinity _ => false
  | .notANumber => false

theorem below_finite {hm : 0 < m} : Below b (.finite s m e hm) = true ↔ m.log2 + e < b :=
  decide_eq_true_iff

theorem isInf_of_below (h : Below b u = true) : u.isInf = false := by
  cases u with
  | infinity s => cases h
  | _ => rfl

/-! ## Dropping bits -/

theorem log2_div_two_pow {k : Nat} (h : m / 2 ^ k ≠ 0) : (m / 2 ^ k).log2 + k ≤ m.log2 := by
  have hm : m ≠ 0 := by
    rintro rfl
    exact h (Nat.zero_div _)
  rw [Nat.le_log2 hm, Nat.pow_add]
  calc 2 ^ (m / 2 ^ k).log2 * 2 ^ k ≤ m / 2 ^ k * 2 ^ k :=
        Nat.mul_le_mul_right _ (Nat.log2_self_le h)
    _ ≤ m := Nat.div_mul_le_self _ _

theorem log2_add_one (m : Nat) : (m + 1).log2 ≤ m.log2 + 1 := by
  have hlt : m < 2 ^ (m.log2 + 1) := Nat.lt_log2_self
  refine Nat.le_of_lt_succ ((Nat.log2_lt m.succ_ne_zero).2 ?_)
  rw [Nat.pow_succ]
  omega

theorem log2_mul {n : Nat} (hm : 0 < m) (hn : 0 < n) : (m * n).log2 ≤ m.log2 + n.log2 + 1 := by
  refine Nat.le_of_lt_succ ((Nat.log2_lt (Nat.mul_pos hm hn).ne').2 ?_)
  calc m * n < 2 ^ (m.log2 + 1) * 2 ^ (n.log2 + 1) :=
        Nat.mul_lt_mul'' Nat.lt_log2_self Nat.lt_log2_self
    _ = 2 ^ (m.log2 + n.log2 + 1 + 1) := by
        rw [← Nat.pow_add]
        congr 1
        omega

/-! ## Rounding -/

/-- The number of bits that are dropped to bring a mantissa to the exponent of its size. -/
def dropped (m : Nat) (e : Int) : Nat :=
  (max (m.log2 + e - 52) (-1074) - e).toNat

theorem shiftToTargetExponent_eq (m : Nat) (e : Int) (accuracy : Accuracy) :
    shiftToTargetExponent .binary64 m e accuracy
      = (ExtendedMantissa.ofMantissaAndAccuracy m accuracy >>> dropped m e, e + dropped m e) := by
  have htarget : Format.binary64.targetExponent (totalExponent m e)
      = max (m.log2 + e - 52) (-1074) := by
    show max ((m.log2 : Int) + 1 + e - 53) (-1074) = _
    congr 1
    omega
  rw [dropped, ← htarget]
  rfl

/-- Rounding up may carry into one more bit. -/
theorem log2_roundedMantissa (accuracy : Accuracy) (hb : -1074 < b) (h : m.log2 + e < b) :
    ((ExtendedMantissa.ofMantissaAndAccuracy m accuracy >>> dropped m e).roundedMantissa.log2 : Int)
      + (e + dropped m e) < b + 1 := by
  obtain ⟨em, hem⟩ : ∃ em, em = ExtendedMantissa.ofMantissaAndAccuracy m accuracy
      >>> dropped m e := ⟨_, rfl⟩
  have hmantissa : em.mantissa = m / 2 ^ dropped m e := by
    rw [hem, Single.mantissa_shiftRight, Single.mantissa_ofMantissaAndAccuracy]
  have hlog : em.roundedMantissa.log2 ≤ em.mantissa.log2 + 1 := by
    rcases Single.roundedMantissa_cases em with heq | heq
    · rw [heq]
      omega
    · rw [heq]
      exact log2_add_one _
  rw [← hem]
  by_cases hzero : m / 2 ^ dropped m e = 0
  · -- nothing but the carry is left, and it stands for the last bit that is kept
    have hone : em.roundedMantissa.log2 = 0 := by
      rcases Single.roundedMantissa_cases em with heq | heq
      · rw [heq, hmantissa, hzero, Nat.log2_zero]
      · rw [heq, hmantissa, hzero]
        decide
    rw [hone]
    unfold dropped
    omega
  · have hkept := log2_div_two_pow hzero
    rw [← hmantissa] at hkept
    omega

theorem below_roundWithAccuracy (hb : -1074 < b) (h : m.log2 + e < b) :
    Below (b + 1) (roundWithAccuracy .binary64 s m e accuracy) = true := by
  have hrounded := log2_roundedMantissa accuracy hb h
  unfold roundWithAccuracy
  rw [shiftToTargetExponent_eq]
  dsimp only
  obtain ⟨R, hR⟩ : ∃ R, R = (ExtendedMantissa.ofMantissaAndAccuracy m accuracy
      >>> dropped m e).roundedMantissa := ⟨_, rfl⟩
  rw [← hR] at hrounded ⊢
  -- the carry is shifted out again, which makes no mantissa longer
  rw [shiftToTargetExponent_eq]
  split
  case isTrue => rfl
  case isFalse hne =>
    rw [below_finite]
    rw [Single.mantissa_shiftRight, Single.mantissa_ofMantissaAndAccuracy] at hne ⊢
    have hkept := log2_div_two_pow hne
    omega

theorem below_mul (hb : -1074 < b + c) (hu : Below b u = true) (hv : Below c v = true) :
    Below (b + c + 1) (UnpackedFloat.mul .binary64 u v) = true := by
  cases u with
  | infinity s => cases hu
  | notANumber => cases hu
  | zero s =>
    cases v with
    | infinity s => cases hv
    | notANumber => cases hv
    | zero s' => rfl
    | finite s' m' e' hm' => rfl
  | finite s m e hm =>
    cases v with
    | infinity s => cases hv
    | notANumber => cases hv
    | zero s' => rfl
    | finite s' m' e' hm' =>
      rw [below_finite] at hu hv
      have hlog := log2_mul hm hm'
      exact below_roundWithAccuracy hb (by omega)

theorem below_round (hm : 0 < m) (hb : -1074 < b) (h : m.log2 + e < b) :
    Below (b + 1) (UnpackedFloat.round .binary64 s m e) = true := by
  unfold UnpackedFloat.round decreaseExponent
  refine below_roundWithAccuracy hb ?_
  rw [Single.log2_shiftLeft hm]
  omega

theorem below_ofNat {n : Nat} (h : n < 2 ^ 64) :
    Below 65 (UnpackedFloat.ofNat .binary64 n) = true := by
  unfold UnpackedFloat.ofNat UnpackedFloat.ofInt UnpackedFloat.normalize
  split
  case h_1 hlt =>
    have hneg := Int.compare_eq_lt.1 hlt
    omega
  case h_2 => rfl
  case h_3 hgt =>
    have hpos : 0 < n := by
      have := Int.compare_eq_gt.1 hgt
      omega
    have hlog : n.log2 < 64 := (Nat.log2_lt hpos.ne').2 h
    exact below_round (m := n) (e := 0) (b := 64) hpos (by decide) (by omega)

/-! ## Packing -/

/-- A pattern whose exponent is not the largest one is a number of that exponent. -/
theorem below_unpack_packComponents (s : Sign) {exponent : BitVec 11} (mantissa : BitVec 52)
    (hexponent : exponent.toNat < 2047) (hb : max (exponent.toNat : Int) 1 ≤ b + 1022) :
    Below b (unpack .binary64 (packComponents .binary64 s exponent mantissa)) = true := by
  have hfinite : exponent ≠ -1#_ := by
    rintro rfl
    exact absurd hexponent (by decide)
  have hbias : (Format.binary64.exponentBias : Int) + 52 = 1075 := rfl
  unfold UnpackedFloat.unpack
  simp only [unpackMantissa_packComponents, unpackExponent_packComponents, if_neg hfinite]
  have hlt := mantissa.isLt
  split
  case isTrue hsubnormal =>
    split
    case isTrue => rfl
    case isFalse hne =>
      rw [below_finite]
      have hpos : mantissa.toNat ≠ 0 := fun h => hne (BitVec.toNat_inj.1 h)
      have hlog : mantissa.toNat.log2 < 52 := (Nat.log2_lt hpos).2 hlt
      have hzero : exponent.toNat = 0 := congrArg BitVec.toNat hsubnormal
      omega
  case isFalse =>
    rw [below_finite]
    have himplicit : (1#1 ++ mantissa).toNat < 2 ^ 53 := (1#1 ++ mantissa).isLt
    have hpos : (1#1 ++ mantissa).toNat ≠ 0 := by
      rw [BitVec.toNat_append, ← Nat.shiftLeft_add_eq_or_of_lt hlt]
      simp
    have hlog : (1#1 ++ mantissa).toNat.log2 < 53 := (Nat.log2_lt hpos).2 himplicit
    omega

/-- A number that is far from overflowing is not larger when it is unpacked again. -/
theorem below_unpack_pack (h : Below b u = true) (hlow : -1021 ≤ b) (hhigh : b ≤ 972) :
    Below b (unpack .binary64 (UnpackedFloat.pack .binary64 u)) = true := by
  cases u with
  | infinity s => cases h
  | notANumber => cases h
  | zero s => exact below_unpack_packComponents s 0 (by decide) (by simp; omega)
  | finite s m e hm =>
    rw [below_finite] at h
    unfold UnpackedFloat.pack
    extract_lets bits exponent
    have hexponent : exponent = (e + 1075).toNat := by
      show (e + 1023 + 52).toNat = _
      omega
    clear_value exponent
    -- the number has no exponent of an infinity, so its pattern is that of a finite number
    have hfits : ¬2 ^ 11 ≤ exponent + 1 := by omega
    rw [if_neg hfits]
    split
    case isTrue hbits =>
      have hlog : m.log2 + 1 = 53 := hbits
      have hbiased : (BitVec.ofNat 11 exponent).toNat = exponent := by
        rw [BitVec.toNat_ofNat]
        exact Nat.mod_eq_of_lt (by omega)
      have hlimit : (BitVec.ofNat 11 exponent).toNat < 2047 := by omega
      refine below_unpack_packComponents s _ hlimit ?_
      rw [hbiased]
      omega
    case isFalse => exact below_unpack_packComponents s _ (by decide) (by simp; omega)

/-! ## Integers and powers of ten -/

theorem below_toFloat (n : UInt64) : Below 65 n.toFloat.toModel.unpack = true :=
  below_unpack_pack (below_ofNat n.toNat_lt) (by decide) (by decide)

theorem below_float_mul {x y : Float} (hlow : -1022 ≤ b + c) (hhigh : b + c ≤ 971)
    (hx : Below b x.toModel.unpack = true) (hy : Below c y.toModel.unpack = true) :
    Below (b + c + 1) (x * y).toModel.unpack = true :=
  below_unpack_pack (below_mul (by omega) hx hy) (by omega) (by omega)

/-- The powers of ten that are in the range of singles. -/
theorem below_powerOfTen : ∀ n < 39, Below 127 (Json.powerOfTen n).toModel.unpack = true := by
  decide +kernel

/-- A 64-bit integer does not overflow when it is scaled by such a power of ten. -/
theorem isInf_mul_powerOfTen (x : UInt64) {n : Nat} (h : n < 39) :
    (x.toFloat * Json.powerOfTen n).isInf = false :=
  isInf_of_below (below_float_mul (by decide) (by decide) (below_toFloat x) (below_powerOfTen n h))

end NeighborSearch.Double
