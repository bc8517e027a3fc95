import NeighborSearch.Proofs.Single.Infinities

/-!
# The total order and the numbers

The total order ranks all bit patterns. This file gives

1. ranks as machine integers: a word whose bits are flipped behind a set sign bit, and which is then
   compared with its sign;
2. the numbers of patterns, infinities among them, by sign and magnitude;
3. the total order of numbers: it is the numeric order, and `-0` stands before `+0`.
-/

namespace NeighborSearch.Single

open Float.Model Float.Model.UnpackedFloat

/-! ## Ranks as machine integers -/

/-- A pattern read as a signed word, with all bits but the sign flipped if the sign is set. -/
def orderKey (bits : UInt32) : Int32 :=
  let word := bits.toInt32
  word ^^^ ((word >>> 31).toUInt32 >>> 1).toInt32

theorem toBitVec_orderKey (bits : UInt32) :
    (orderKey bits).toBitVec = bits.toBitVec ^^^ (bits.toBitVec.sshiftRight 31 >>> 1) := rfl

/-- Flipping the lower 31 bits of a word with the upper bit. -/
theorem xor_magnitude {n : Nat} (h : 0x80000000 ≤ n) (h' : n < 0x100000000) :
    n ^^^ 0x7fffffff = 0x17fffffff - n := by
  have hhigh : (n ^^^ 0x7fffffff) / 2 ^ 31 = n / 2 ^ 31 := by
    rw [Nat.xor_div_two_pow]
    exact Nat.xor_zero _
  have hlow : (n ^^^ 0x7fffffff) % 2 ^ 31 = 0x7fffffff - n % 2 ^ 31 := by
    have hnot := BitVec.toNat_not (x := BitVec.ofNat 31 n)
    rw [← BitVec.xor_allOnes, BitVec.toNat_xor, BitVec.toNat_ofNat] at hnot
    rw [Nat.xor_mod_two_pow]
    exact hnot
  omega

/-- A rank is computed on words, without looking at what the pattern stands for. -/
theorem toInt_orderKey (bits : UInt32) : (orderKey bits).toInt = rank bits := by
  have hlt := bits.toNat_lt
  show (orderKey bits).toBitVec.toInt = _
  rw [toBitVec_orderKey, rank]
  split
  case isTrue h =>
    have hmsb : bits.toBitVec.msb = false := by
      rw [BitVec.msb_eq_false_iff_two_mul_lt]
      show 2 * bits.toNat < 2 ^ 32
      omega
    have hshift : bits.toBitVec.sshiftRight 31 = 0#32 := by
      rw [BitVec.sshiftRight_eq_of_msb_false hmsb, ← BitVec.toNat_inj, BitVec.toNat_ushiftRight,
        Nat.shiftRight_eq_div_pow]
      exact Nat.div_eq_of_lt h
    rw [hshift, BitVec.zero_ushiftRight, BitVec.xor_zero, BitVec.toInt_eq_toNat_of_msb hmsb]
    rfl
  case isFalse h =>
    have hmsb : bits.toBitVec.msb = true := by
      rw [BitVec.msb_eq_true_iff_two_mul_ge]
      show 2 ^ 32 ≤ 2 * bits.toNat
      omega
    have hshift : bits.toBitVec.sshiftRight 31 = BitVec.allOnes 32 := by
      have hzero : ~~~bits.toBitVec >>> 31 = 0#32 := by
        rw [← BitVec.toNat_inj, BitVec.toNat_ushiftRight, Nat.shiftRight_eq_div_pow,
          BitVec.toNat_not]
        show (2 ^ 32 - 1 - bits.toNat) / 2 ^ 31 = 0
        omega
      rw [BitVec.sshiftRight_eq_of_msb_true hmsb, hzero]
      rfl
    have hword : (bits.toBitVec ^^^ (BitVec.allOnes 32 >>> 1)).toNat
        = 0x17fffffff - bits.toNat := by
      rw [BitVec.toNat_xor]
      exact xor_magnitude (Nat.not_lt.1 h) hlt
    rw [hshift, BitVec.toInt_eq_toNat_cond, hword]
    split <;> omega

theorem totalCompare_eq_compare_orderKey (x y : UInt32) :
    totalCompare x y = compare (orderKey x) (orderKey y) := by
  have hlt : orderKey x < orderKey y ↔ rank x < rank y := by
    rw [Int32.lt_iff_toInt_lt, toInt_orderKey, toInt_orderKey]
  have heq : orderKey x = orderKey y ↔ rank x = rank y := by
    rw [← Int32.toInt_inj, toInt_orderKey, toInt_orderKey]
  show compareOfLessAndEq (rank x) (rank y) = compareOfLessAndEq (orderKey x) (orderKey y)
  unfold compareOfLessAndEq
  simp only [hlt, heq]

/-! ## The numbers of patterns -/

section Numbers

variable {m n : Nat} {u : UnpackedFloat} {bits : UInt32}

/-- The number that an unpacked value stands for, which may be infinite. -/
noncomputable def extended : UnpackedFloat → EReal
  | .infinity .positive => ⊤
  | .infinity .negative => ⊥
  | u => (real u : ℝ)

/-- The number that a value stands for, which may be infinite. What is not a number counts as
zero. -/
noncomputable def number (x : Float32) : EReal :=
  extended x.toModel.unpack

theorem extended_of_isFinite (h : u.isFinite = true) : extended u = (real u : ℝ) := by
  cases u with
  | infinity s => cases h
  | _ => rfl

theorem extended_neg (u : UnpackedFloat) : extended u.neg = -extended u := by
  cases u with
  | infinity s =>
    cases s
    · exact EReal.neg_bot.symm
    · exact EReal.neg_top.symm
  | notANumber => exact (congrArg Real.toEReal (real_neg .notANumber)).trans (EReal.coe_neg _)
  | zero s => exact (congrArg Real.toEReal (real_neg (.zero s))).trans (EReal.coe_neg _)
  | finite s m e hm =>
    exact (congrArg Real.toEReal (real_neg (.finite s m e hm))).trans (EReal.coe_neg _)

theorem isFinite_decoded {s : Sign} (h : m < 0x7f800000) : (decoded s m).isFinite = true := by
  unfold decoded
  split_ifs
  · rfl
  · rfl
  · rfl

theorem decoded_negative (m : Nat) : decoded .negative m = (decoded .positive m).neg := by
  unfold decoded
  split_ifs <;> rfl

/-- A larger magnitude stands for a larger number. -/
theorem extended_decoded_lt (hmn : m < n) (hn : n ≤ 0x7f800000) :
    extended (decoded .positive m) < extended (decoded .positive n) := by
  have hm := isFinite_decoded (s := .positive) (Nat.lt_of_lt_of_le hmn hn)
  rw [extended_of_isFinite hm]
  rcases Nat.lt_or_eq_of_le hn with hlt | rfl
  · have hn' := isFinite_decoded (s := .positive) hlt
    rw [extended_of_isFinite hn', EReal.coe_lt_coe_iff]
    exact real_lt_of_compare (canonical_decoded _ _) (canonical_decoded _ _) hm hn'
      (compare_decoded_of_lt hmn hn)
  · exact EReal.coe_lt_top _

theorem extended_decoded_zero (s : Sign) : extended (decoded s 0) = 0 := rfl

theorem extended_decoded_nonneg (hm : m ≤ 0x7f800000) : 0 ≤ extended (decoded .positive m) := by
  rcases Nat.eq_zero_or_pos m with rfl | hpos
  · exact (extended_decoded_zero _).ge
  · rw [← extended_decoded_zero .positive]
    exact (extended_decoded_lt hpos hm).le

/-- The sign of a pattern. -/
def signOf (bits : UInt32) : Sign :=
  if bits.toNat < 0x80000000 then .positive else .negative

theorem unpack_ofBits (bits : UInt32) :
    (Float32.ofBits bits).toModel.unpack = decoded (signOf bits) (bits.toNat % 0x80000000) := by
  have hsign : Sign.ofBitVec (@unpackSign .binary32 bits.toBitVec) = signOf bits := by
    rw [signOf]
    split
    case isTrue h => exact ofBitVec_unpackSign_of_lt h
    case isFalse h =>
      have hlt := bits.toNat_lt
      have hone : @unpackSign .binary32 bits.toBitVec = 1#1 := by
        rw [← BitVec.toNat_inj, toNat_unpackSign]
        show bits.toNat / 0x80000000 = 1
        omega
      rw [hone]
      rfl
  have hunpack : unpack .binary32 bits.toBitVec
      = decoded (signOf bits) (bits.toNat % 0x80000000) := by
    rw [unpack_eq_decoded, hsign]
    rfl
  show (Float32.ofModel (.pack (unpack .binary32 bits.toBitVec))).toModel.unpack = _
  rw [hunpack, unpack_ofModel_pack (canonical_decoded _ _), clip_decoded]

/-- The magnitude of a number is not above that of infinity. -/
theorem magnitude_le_of_isNaN (h : (Float32.ofBits bits).isNaN = false) :
    bits.toNat % 0x80000000 ≤ 0x7f800000 := by
  by_contra hlarge
  have hnan : (decoded (signOf bits) (bits.toNat % 0x80000000)).isNaN = false := by
    rw [← unpack_ofBits]
    exact h
  rw [decoded, dif_neg (by omega), if_neg (by omega), if_neg (by omega), if_neg (by omega)] at hnan
  cases hnan

theorem number_of_positive (h : bits.toNat < 0x80000000) :
    number (.ofBits bits) = extended (decoded .positive bits.toNat) := by
  rw [number, unpack_ofBits, signOf, if_pos h, Nat.mod_eq_of_lt h]

theorem number_of_negative (h : ¬bits.toNat < 0x80000000) :
    number (.ofBits bits) = -extended (decoded .positive (bits.toNat - 0x80000000)) := by
  have hlt := bits.toNat_lt
  have hmagnitude : bits.toNat % 0x80000000 = bits.toNat - 0x80000000 := by omega
  rw [number, unpack_ofBits, signOf, if_neg h, hmagnitude, decoded_negative, extended_neg]

/-- The two zeros are the same number. -/
theorem number_negative_zero : number (.ofBits 0x80000000) = number (.ofBits 0) := rfl

end Numbers

/-! ## The total order of numbers -/

section TotalOrder

variable {x y : UInt32}

/-- What is ranked below is the smaller number, or `-0` below `+0`. -/
theorem number_lt_or_of_rank_lt (hx : (Float32.ofBits x).isNaN = false)
    (hy : (Float32.ofBits y).isNaN = false) (h : rank x < rank y) :
    number (.ofBits x) < number (.ofBits y) ∨ x = 0x80000000 ∧ y = 0 := by
  have hx' := magnitude_le_of_isNaN hx
  have hy' := magnitude_le_of_isNaN hy
  have hxlt := x.toNat_lt
  have hylt := y.toNat_lt
  unfold rank at h
  by_cases hsx : x.toNat < 0x80000000 <;> by_cases hsy : y.toNat < 0x80000000
  · -- two positive patterns are ranked as their magnitudes
    rw [if_pos hsx, if_pos hsy] at h
    left
    rw [number_of_positive hsx, number_of_positive hsy]
    exact extended_decoded_lt (by omega) (by omega)
  · -- a positive pattern is not ranked below a negative one
    rw [if_pos hsx, if_neg hsy] at h
    omega
  · -- below zero and above it: only the two zeros are the same number
    rw [number_of_negative hsx, number_of_positive hsy]
    have hnonneg := extended_decoded_nonneg (m := y.toNat) (by omega)
    rcases Nat.eq_zero_or_pos (x.toNat - 0x80000000) with hx0 | hxpos
    · rcases Nat.eq_zero_or_pos y.toNat with hy0 | hypos
      · right
        refine ⟨UInt32.toNat_inj.1 ?_, UInt32.toNat_inj.1 hy0⟩
        show x.toNat = 0x80000000
        omega
      · left
        rw [hx0, extended_decoded_zero, neg_zero, ← extended_decoded_zero .positive]
        exact extended_decoded_lt hypos (by omega)
    · left
      have hneg : -extended (decoded .positive (x.toNat - 0x80000000)) < 0 := by
        rw [EReal.neg_lt_comm, neg_zero, ← extended_decoded_zero .positive]
        exact extended_decoded_lt hxpos (by omega)
      exact hneg.trans_le hnonneg
  · -- two negative patterns are ranked as their magnitudes the other way round
    rw [if_neg hsx, if_neg hsy] at h
    left
    rw [number_of_negative hsx, number_of_negative hsy, EReal.neg_lt_neg_iff]
    exact extended_decoded_lt (by omega) (by omega)

/-- Numbers are in the total order as they are in the numeric one, with `-0` before `+0`. -/
theorem totalCompare_eq_lt_iff (hx : (Float32.ofBits x).isNaN = false)
    (hy : (Float32.ofBits y).isNaN = false) :
    totalCompare x y = .lt
      ↔ number (.ofBits x) < number (.ofBits y) ∨ x = 0x80000000 ∧ y = 0 := by
  rw [totalCompare, Int.compare_eq_lt]
  constructor
  · exact number_lt_or_of_rank_lt hx hy
  · intro h
    by_contra hrank
    rcases Int.lt_or_eq_of_le (Int.not_lt.1 hrank) with hlt | heq
    · rcases number_lt_or_of_rank_lt hy hx hlt with hnumber | ⟨rfl, rfl⟩
      · rcases h with h | ⟨rfl, rfl⟩
        · exact absurd h hnumber.asymm
        · exact absurd hlt (by decide)
      · rcases h with h | ⟨h, -⟩
        · exact absurd (h.trans_eq number_negative_zero) (lt_irrefl _)
        · exact absurd h (by decide)
    · rw [rank_inj] at heq
      subst heq
      rcases h with h | ⟨rfl, h⟩
      · exact absurd h (lt_irrefl _)
      · exact absurd h (by decide)

end TotalOrder

end NeighborSearch.Single
