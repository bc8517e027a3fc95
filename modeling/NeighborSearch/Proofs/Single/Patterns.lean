import Mathlib
import NeighborSearch.Single.Order

/-!
# What bit patterns stand for

A single-precision pattern is a sign bit, eight bits of exponent and 23 bits of mantissa. Without
its sign it is its magnitude, and magnitudes are ordered as the numbers they stand for. This
file gives

1. the three fields of a pattern as quotients and remainders;
2. what a pattern stands for, by its sign and its magnitude (`decoded`);
3. the comparison of the numbers of two patterns without a sign.
-/

namespace NeighborSearch.Single

open Float.Model Float.Model.UnpackedFloat

/-! ## Fields -/

section Fields

variable (bits : BitVec Format.binary32.numBits)

theorem toNat_unpackMantissa : (unpackMantissa bits).toNat = bits.toNat % 0x800000 := by
  rw [unpackMantissa_def, BitVec.extractLsb'_toNat, Nat.shiftRight_zero]
  rfl

theorem toNat_unpackExponent :
    (unpackExponent bits).toNat = bits.toNat / 0x800000 % 0x100 := by
  rw [unpackExponent_def, BitVec.extractLsb'_toNat, Nat.shiftRight_eq_div_pow]
  rfl

theorem toNat_unpackSign : (unpackSign bits).toNat = bits.toNat / 0x80000000 := by
  have h : bits.toNat < 0x100000000 := bits.isLt
  rw [unpackSign_def, BitVec.extractLsb'_toNat, Nat.shiftRight_eq_div_pow]
  show bits.toNat / 0x80000000 % 2 = _
  omega

theorem toNat_packComponents (sign : Sign) (exponent : BitVec 8) (mantissa : BitVec 23) :
    (packComponents .binary32 sign exponent mantissa).toNat
      = sign.toBitVec.toNat * 0x80000000 + exponent.toNat * 0x800000 + mantissa.toNat := by
  rw [packComponents, BitVec.toNat_append, BitVec.toNat_append,
    ← Nat.shiftLeft_add_eq_or_of_lt mantissa.isLt, ← Nat.shiftLeft_add_eq_or_of_lt exponent.isLt]
  simp only [Nat.shiftLeft_eq]
  omega

end Fields

/-! ## Decoding -/

/-- What a pattern with this sign and this magnitude stands for. -/
def decoded (sign : Sign) (magnitude : Nat) : UnpackedFloat :=
  if h : magnitude = 0 then .zero sign
  else if magnitude < 0x800000 then .finite sign magnitude (-149) (Nat.pos_of_ne_zero h)
  else if magnitude < 0x7f800000 then
    .finite sign (0x800000 + magnitude % 0x800000) (magnitude / 0x800000 - 150) (by omega)
  else if magnitude = 0x7f800000 then .infinity sign
  else .notANumber

theorem unpack_eq_decoded (bits : BitVec Format.binary32.numBits) :
    unpack .binary32 bits
      = decoded (Sign.ofBitVec (unpackSign bits)) (bits.toNat % 0x80000000) := by
  have hinfinite : unpackExponent bits = -1#_ ↔ bits.toNat / 0x800000 % 0x100 = 0xff := by
    rw [← BitVec.toNat_inj, toNat_unpackExponent]
    rfl
  have hsmall : unpackExponent bits = 0#_ ↔ bits.toNat / 0x800000 % 0x100 = 0 := by
    rw [← BitVec.toNat_inj, toNat_unpackExponent]
    rfl
  have hround : unpackMantissa bits = 0#_ ↔ bits.toNat % 0x800000 = 0 := by
    rw [← BitVec.toNat_inj, toNat_unpackMantissa]
    rfl
  have himplicit : (1#1 ++ unpackMantissa bits).toNat = 0x800000 + bits.toNat % 0x800000 := by
    rw [BitVec.toNat_append, ← Nat.shiftLeft_add_eq_or_of_lt (unpackMantissa bits).isLt,
      toNat_unpackMantissa]
    rfl
  have hbias : (Format.binary32.exponentBias : Int) + 23 = 150 := rfl
  unfold UnpackedFloat.unpack decoded
  simp only [hinfinite, hsmall, hround, himplicit, toNat_unpackMantissa, toNat_unpackExponent]
  split_ifs <;> try first | rfl | omega
  -- two kinds of numbers are left: those without the implicit bit, and those with it
  · congr 1 <;> omega
  · congr 1 <;> omega

theorem ofBitVec_unpackSign_of_lt {bits : BitVec Format.binary32.numBits}
    (h : bits.toNat < 0x80000000) : Sign.ofBitVec (unpackSign bits) = .positive := by
  have hsign : unpackSign bits = 0#1 := by
    rw [← BitVec.toNat_inj, toNat_unpackSign]
    exact Nat.div_eq_of_lt h
  rw [hsign]
  rfl

/-! ## Comparison -/

/-- Comparing two numbers the other way round turns the outcome round. -/
theorem compare_swap (u v : UnpackedFloat) :
    UnpackedFloat.compare v u = (UnpackedFloat.compare u v).map Ordering.swap := by
  have hswap (e e' : Int) (m m' : Nat) :
      (compare e' e).then (compare m' m) = ((compare e e').then (compare m m')).swap := by
    rw [Ordering.swap_then, ← Std.OrientedCmp.eq_swap, ← Std.OrientedCmp.eq_swap]
  cases u with
  | notANumber => cases v <;> rfl
  | infinity s =>
    cases v with
    | infinity t => cases s <;> cases t <;> rfl
    | _ => cases s <;> rfl
  | zero s =>
    cases v with
    | infinity t => cases t <;> rfl
    | finite t => cases t <;> rfl
    | _ => rfl
  | finite s m e hm =>
    cases v with
    | notANumber => cases s <;> rfl
    | infinity t => cases s <;> cases t <;> rfl
    | zero t => cases s <;> rfl
    | finite t m' e' hm' =>
      cases s <;> cases t
      · exact congrArg (some ·.swap) (hswap e e' m m')
      · rfl
      · rfl
      · exact congrArg some (hswap e e' m m')

/-- A finite number comes first if its exponent is smaller, or its mantissa at one exponent. -/
theorem compare_finite_of_lt {m m' : Nat} {e e' : Int} (hm : 0 < m) (hm' : 0 < m')
    (h : e < e' ∨ e = e' ∧ m < m') :
    UnpackedFloat.compare (.finite .positive m e hm) (.finite .positive m' e' hm')
      = some .lt := by
  show some ((compare e e').then (compare m m')) = _
  rcases h with he | ⟨rfl, hm⟩
  · rw [Int.compare_eq_lt.2 he]
    rfl
  · rw [Int.compare_eq_eq.2 rfl, Nat.compare_eq_lt.2 hm]
    rfl

theorem compare_decoded_of_lt {x y : Nat} (hxy : x < y) (hy : y ≤ 0x7f800000) :
    UnpackedFloat.compare (decoded .positive x) (decoded .positive y) = some .lt := by
  unfold decoded
  split_ifs <;> try first | rfl | omega
  -- both are finite: without the implicit bit, with it, or only the second one with it
  · exact compare_finite_of_lt _ _ (by omega)
  · exact compare_finite_of_lt _ _ (by omega)
  · exact compare_finite_of_lt _ _ (by omega)

theorem compare_decoded_self {x : Nat} (hx : x ≤ 0x7f800000) :
    UnpackedFloat.compare (decoded .positive x) (decoded .positive x) = some .eq := by
  have hfinite {m : Nat} {e : Int} (hm : 0 < m) :
      UnpackedFloat.compare (.finite .positive m e hm) (.finite .positive m e hm)
        = some .eq := by
    show some ((compare e e).then (compare m m)) = _
    rw [Int.compare_eq_eq.2 rfl, Nat.compare_eq_eq.2 rfl]
    rfl
  unfold decoded
  split_ifs <;> first | rfl | omega | exact hfinite _

/-- The numbers of patterns without a sign are ordered as the patterns are. -/
theorem compare_decoded {x y : Nat} (hx : x ≤ 0x7f800000) (hy : y ≤ 0x7f800000) :
    UnpackedFloat.compare (decoded .positive x) (decoded .positive y) = some (compare x y) := by
  rcases Nat.lt_trichotomy x y with h | rfl | h
  · rw [compare_decoded_of_lt h hy, Nat.compare_eq_lt.2 h]
  · rw [compare_decoded_self hx, Nat.compare_eq_eq.2 rfl]
  · rw [compare_swap, compare_decoded_of_lt h hx, Nat.compare_eq_gt.2 h]
    rfl

end NeighborSearch.Single
