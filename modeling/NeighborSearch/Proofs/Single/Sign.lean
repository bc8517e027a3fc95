import NeighborSearch.Proofs.Single.Patterns

/-!
# Signs of results

Whatever an operation rounds, and whether its result overflows or underflows, the result has the
sign of the exact value. Only an operation without an exact value gives what is not a number. So
the sign of a result can be read off the operands, and it is the sign bit of the pattern that the
result is packed to.
-/

namespace NeighborSearch.Single

open Float.Model Float.Model.UnpackedFloat

/-- The sign of a number, which zeros and infinities have too. -/
def sign? : UnpackedFloat → Option Sign
  | .notANumber => none
  | .infinity sign => some sign
  | .zero sign => some sign
  | .finite sign _ _ _ => some sign

theorem sign?_eq_none_iff {u : UnpackedFloat} : sign? u = none ↔ u = .notANumber := by
  cases u <;> simp [sign?]

/-! ## Operations -/

section Operations

variable {spec : Format} {u v : UnpackedFloat} {s : Sign}

theorem sign?_roundWithAccuracy (m : Nat) (e : Int) (accuracy : Accuracy) :
    sign? (roundWithAccuracy spec s m e accuracy) = some s := by
  unfold roundWithAccuracy
  dsimp only
  split <;> rfl

theorem sign?_round (m : Nat) (e : Int) : sign? (round spec s m e) = some s :=
  sign?_roundWithAccuracy _ _ _

theorem sign?_normalize_of_nonneg {m : Int} (hm : 0 ≤ m) (e : Int) :
    sign? (normalize spec m e .positive) = some .positive := by
  unfold UnpackedFloat.normalize
  split
  case h_1 hlt => exact absurd (Int.compare_eq_lt.1 hlt) (Int.not_lt.2 hm)
  case h_2 => rfl
  case h_3 => exact sign?_round _ _

theorem isSome_sign?_normalize (m e : Int) :
    (sign? (normalize spec m e s)).isSome = true := by
  unfold UnpackedFloat.normalize
  split
  case h_1 => rw [sign?_round]; rfl
  case h_2 => rfl
  case h_3 => rw [sign?_round]; rfl

/-- Nothing cancels where no operand is negative. -/
theorem sign?_add (hu : sign? u = some .positive) (hv : sign? v = some .positive) :
    sign? (UnpackedFloat.add spec u v) = some .positive := by
  cases u <;> cases hu <;> cases v <;> cases hv <;> try rfl
  -- both are finite: the exact sum is a sum of natural numbers
  exact sign?_normalize_of_nonneg (Int.add_nonneg (Int.natCast_nonneg _) (Int.natCast_nonneg _)) _

/-- A zero of either sign can be added too. -/
theorem sign?_zero_add (hv : sign? v = some .positive) :
    sign? (UnpackedFloat.add spec (.zero s) v) = some .positive := by
  cases v <;> cases hv <;> cases s <;> rfl

/-- Taking away what is negative adds its magnitude. -/
theorem sign?_sub_of_negative (hu : sign? u = some .positive) (hv : sign? v = some .negative) :
    sign? (UnpackedFloat.sub spec u v) = some .positive := by
  cases u <;> cases hu <;> cases v <;> cases hv <;> try rfl
  refine sign?_normalize_of_nonneg ?_ _
  exact Int.sub_nonneg_of_le (Int.le_trans (Int.neg_nonpos_of_nonneg (Int.natCast_nonneg _))
    (Int.natCast_nonneg _))

theorem sub_notANumber : UnpackedFloat.sub spec u .notANumber = .notANumber := by
  cases u <;> rfl

/-- Taking away a finite number that has a smaller exponent and a mantissa of the same width, or
the same exponent and no larger mantissa. -/
theorem sign?_sub_finite {m m' : Nat} {e e' : Int} (hm : 0 < m) (hm' : 0 < m')
    (h : e' < e ∧ m' ≤ 2 * m ∨ e' = e ∧ m' ≤ m) :
    sign? (UnpackedFloat.sub spec (.finite .positive m e hm) (.finite .positive m' e' hm'))
      = some .positive := by
  have hmin : min e e' = e' := by omega
  have hshifted : m' ≤ m * 2 ^ (e - e').toNat := by
    rcases h with ⟨he, hle⟩ | ⟨rfl, hle⟩
    · have hpow : 2 ^ 1 ≤ 2 ^ (e - e').toNat := Nat.pow_le_pow_right (by decide) (by omega)
      calc m' ≤ m * 2 ^ 1 := by omega
        _ ≤ m * 2 ^ (e - e').toNat := Nat.mul_le_mul_left m hpow
    · rw [Int.sub_self, Int.toNat_zero, Nat.pow_zero, Nat.mul_one]
      exact hle
  refine sign?_normalize_of_nonneg ?_ _
  -- both are brought to the smaller exponent
  show 0 ≤ ((m <<< (e - min e e').toNat : Nat) : Int) - ((m' <<< (e' - min e e').toNat : Nat) : Int)
  rw [hmin, Int.sub_self, Int.toNat_zero, Nat.shiftLeft_zero, Nat.shiftLeft_eq]
  omega

/-- Nothing negative is left where no more is taken away than there is. -/
theorem sign?_sub_decoded {x y : Nat} (hyx : y ≤ x) (hx : x < 0x7f800000) :
    sign? (UnpackedFloat.sub .binary32 (decoded .positive x) (decoded .positive y))
      = some .positive := by
  unfold decoded
  split_ifs <;> try first | rfl | omega
  all_goals exact sign?_sub_finite _ _ (by omega)

/-- The difference of finite values is a number, though it may overflow. -/
theorem isSome_sign?_sub (hu : u.isFinite = true) (hv : v.isFinite = true) :
    (sign? (UnpackedFloat.sub spec u v)).isSome = true := by
  cases u <;> cases hu <;> cases v <;> cases hv
  case zero.refl.zero.refl s t => cases s <;> cases t <;> rfl
  case zero.refl.finite.refl => rfl
  case finite.refl.zero.refl => rfl
  case finite.refl.finite.refl => exact isSome_sign?_normalize _ _

theorem sign?_mul_self (h : (sign? u).isSome = true) :
    sign? (UnpackedFloat.mul spec u u) = some .positive := by
  have hsign (s : Sign) : s * s = .positive := by cases s <;> rfl
  cases u with
  | notANumber => cases h
  | infinity s => exact congrArg some (hsign s)
  | zero s => exact congrArg some (hsign s)
  | finite s m e hm =>
    show sign? (roundWithAccuracy spec (s * s) (m * m) (e + e) .exact) = _
    rw [sign?_roundWithAccuracy, hsign]

theorem sign?_sqrt (h : sign? u = some .positive) :
    sign? (UnpackedFloat.sqrt spec u) = some .positive := by
  cases u with
  | notANumber => cases h
  | infinity s => cases h; rfl
  | zero s => exact h
  | finite s m e hm => cases h; exact sign?_roundWithAccuracy _ _ _

end Operations

/-! ## Patterns -/

section Patterns

variable {u : UnpackedFloat} {s : Sign}

theorem exists_toNat_packComponents (s : Sign) {exponent : BitVec 8} {mantissa : BitVec 23}
    (h : exponent.toNat * 0x800000 + mantissa.toNat ≤ 0x7f800000) :
    ∃ magnitude ≤ 0x7f800000, (packComponents .binary32 s exponent mantissa).toNat
      = s.toBitVec.toNat * 0x80000000 + magnitude :=
  ⟨_, h, by rw [toNat_packComponents, Nat.add_assoc]⟩

/-- The pattern of a number is its sign bit and a magnitude that is not above that of infinity. -/
theorem exists_toNat_pack (h : sign? u = some s) :
    ∃ magnitude ≤ 0x7f800000, (UnpackedFloat.pack .binary32 u).toNat
      = s.toBitVec.toNat * 0x80000000 + magnitude := by
  have hinfinity : ∃ magnitude ≤ 0x7f800000, (packedInfinity .binary32 s).toNat
      = s.toBitVec.toNat * 0x80000000 + magnitude :=
    exists_toNat_packComponents s (by decide)
  cases u with
  | notANumber => cases h
  | infinity s =>
    cases h
    exact hinfinity
  | zero s =>
    cases h
    exact exists_toNat_packComponents s (by decide)
  | finite s m e hm =>
    cases h
    have hmantissa : (BitVec.ofNat 23 m).toNat < 0x800000 := (BitVec.ofNat 23 m).isLt
    unfold UnpackedFloat.pack
    extract_lets bits exponent
    split_ifs with hlarge hnormal
    · exact hinfinity
    · apply exists_toNat_packComponents
      have hexponent : (BitVec.ofNat 8 exponent).toNat < 0xff := by
        have hlimit : ¬256 ≤ exponent + 1 := hlarge
        rw [BitVec.toNat_ofNat]
        omega
      show (BitVec.ofNat 8 exponent).toNat * 0x800000 + (BitVec.ofNat 23 m).toNat ≤ 0x7f800000
      omega
    · apply exists_toNat_packComponents
      show (0#8).toNat * 0x800000 + (BitVec.ofNat 23 m).toNat ≤ 0x7f800000
      rw [BitVec.toNat_zero]
      omega

theorem sign?_decoded {magnitude : Nat} (h : magnitude ≤ 0x7f800000) :
    sign? (decoded s magnitude) = some s := by
  unfold decoded
  split_ifs <;> first | rfl | omega

/-- Packing keeps the sign. -/
theorem sign?_unpack_pack (h : sign? u = some s) :
    sign? (unpack .binary32 (UnpackedFloat.pack .binary32 u)) = some s := by
  obtain ⟨magnitude, hmagnitude, hbits⟩ := exists_toNat_pack h
  have hsign : Sign.ofBitVec (unpackSign (UnpackedFloat.pack .binary32 u)) = s := by
    have hbit : unpackSign (UnpackedFloat.pack .binary32 u) = s.toBitVec := by
      rw [← BitVec.toNat_inj, toNat_unpackSign, hbits]
      omega
    rw [hbit, Sign.ofBitVec_toBitVec]
  have hmod : (UnpackedFloat.pack .binary32 u).toNat % 0x80000000 = magnitude := by
    rw [hbits]
    omega
  rw [unpack_eq_decoded, hsign, hmod, sign?_decoded hmagnitude]

end Patterns

end NeighborSearch.Single
