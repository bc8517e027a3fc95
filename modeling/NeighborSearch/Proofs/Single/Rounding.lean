import NeighborSearch.Proofs.Single.Values

/-!
# Rounding

The result of an operation comes as a mantissa of too many bits, with a note of what else was lost
of the exact number. It is rounded by dropping bits one by one, while one bit tells what was dropped
last and one what was dropped before. This file shows that the outcome is a faithful rounding:

1. dropping bits divides the mantissa, and it is noted whether there was a remainder;
2. the rounded mantissa, which may need a bit more, is given the form of a pattern;
3. what is rounded from an approximation of the exact number, if it has enough bits;
4. what is rounded from an integer times a power of two, whatever its bits.
-/

namespace NeighborSearch.Single

open Float.Model Float.Model.UnpackedFloat

/-! ## Dropping bits -/

section Dropping

variable {em : ExtendedMantissa}

/-- Nothing but zeros was dropped from a mantissa. -/
def KeepsAll (em : ExtendedMantissa) : Prop :=
  em.roundBit = false ∧ em.stickyBit = false

theorem mantissa_shiftRight (em : ExtendedMantissa) (k : ℕ) :
    (em >>> k).mantissa = em.mantissa / 2 ^ k := by
  induction k with
  | zero => exact (Nat.div_one _).symm
  | succ k ih =>
    show (em >>> k).mantissa / 2 = _
    rw [ih, Nat.div_div_eq_div_mul, ← Nat.pow_succ]

theorem keepsAll_shiftRight (em : ExtendedMantissa) (k : ℕ) :
    KeepsAll (em >>> k) ↔ KeepsAll em ∧ 2 ^ k ∣ em.mantissa := by
  induction k with
  | zero =>
    show KeepsAll em ↔ _
    rw [Nat.pow_zero]
    exact (and_iff_left (one_dvd _)).symm
  | succ k ih =>
    have hstep : KeepsAll (em >>> (k + 1))
        ↔ KeepsAll (em >>> k) ∧ (em >>> k).mantissa % 2 = 0 := by
      show ((em >>> k).mantissa % 2 != 0) = false
        ∧ ((em >>> k).roundBit || (em >>> k).stickyBit) = false ↔ _
      rw [bne_eq_false_iff_eq, Bool.or_eq_false_iff]
      exact and_comm
    rw [hstep, ih, mantissa_shiftRight, and_assoc]
    refine and_congr_right fun _ => ?_
    rw [← Nat.dvd_iff_mod_eq_zero, Nat.pow_succ]
    constructor
    · rintro ⟨hk, h2⟩
      exact (Nat.dvd_div_iff_mul_dvd hk).1 h2
    · intro h
      have hk : 2 ^ k ∣ em.mantissa := (Nat.dvd_mul_right _ _).trans h
      exact ⟨hk, (Nat.dvd_div_iff_mul_dvd hk).2 h⟩

theorem roundedMantissa_eq (h : KeepsAll em) : em.roundedMantissa = em.mantissa := by
  obtain ⟨m, r, t⟩ := em
  obtain ⟨rfl, rfl⟩ := h
  rfl

theorem roundedMantissa_cases (em : ExtendedMantissa) :
    em.roundedMantissa = em.mantissa ∨ em.roundedMantissa = em.mantissa + 1 := by
  obtain ⟨m, r, t⟩ := em
  cases r <;> cases t
  · exact .inl rfl
  · exact .inl rfl
  · -- a tie goes to the even neighbor
    show m + m % 2 = m ∨ m + m % 2 = m + 1
    omega
  · exact .inr rfl

theorem mantissa_ofMantissaAndAccuracy (m : ℕ) (accuracy : Accuracy) :
    (ExtendedMantissa.ofMantissaAndAccuracy m accuracy).mantissa = m := by
  rcases accuracy with _ | (_ | _ | _) <;> rfl

theorem keepsAll_ofMantissaAndAccuracy (m : ℕ) (accuracy : Accuracy) :
    KeepsAll (.ofMantissaAndAccuracy m accuracy) ↔ accuracy = .exact := by
  rcases accuracy with _ | (_ | _ | _) <;>
    simp [KeepsAll, ExtendedMantissa.ofMantissaAndAccuracy]

end Dropping

/-! ## Rounded mantissas -/

section Rounded

variable {s : Sign} {m R : ℕ} {e t : ℤ} {accuracy : Accuracy}

/-- The number with a rounded mantissa. Rounding up may need one bit more than there is room for,
and then the mantissa is a power of two. -/
def ofRounded (s : Sign) (R : ℕ) (e : ℤ) : UnpackedFloat :=
  if h : R = 0 then .zero s
  else if R < 0x1000000 then .finite s R e (Nat.pos_of_ne_zero h)
  else .finite s 0x800000 (e + 1) (by decide)

theorem targetExponent_eq (m : ℕ) (e : ℤ) :
    Format.binary32.targetExponent (totalExponent m e) = max (m.log2 + e - 23) (-149) := by
  show max ((m.log2 : ℤ) + 1 + e - 24) (-149) = _
  congr 1
  omega

theorem shiftToTargetExponent_eq (m : ℕ) (e : ℤ) (accuracy : Accuracy) :
    shiftToTargetExponent .binary32 m e accuracy
      = (ExtendedMantissa.ofMantissaAndAccuracy m accuracy
            >>> (max (m.log2 + e - 23) (-149) - e).toNat,
          e + (max (m.log2 + e - 23) (-149) - e).toNat) := by
  rw [← targetExponent_eq]
  rfl

theorem log2_le_of_lt (h : R < 0x1000000) : R.log2 ≤ 23 := by
  by_cases h0 : R = 0
  · rw [h0]
    decide
  · exact Nat.le_of_lt_succ ((Nat.log2_lt h0).2 h)

/-- A rounded mantissa is not rounded again. -/
theorem shift_rounded (ht : -149 ≤ t) (hR : R < 0x1000000) :
    shiftToTargetExponent .binary32 R t .exact = (⟨R, false, false⟩, t) := by
  have hlog := log2_le_of_lt hR
  have hshift : (max ((R.log2 : ℤ) + t - 23) (-149) - t).toNat = 0 := by omega
  rw [shiftToTargetExponent_eq, hshift]
  exact congrArg _ (Int.add_zero t)

theorem shift_rounded_up (ht : -149 ≤ t) :
    shiftToTargetExponent .binary32 0x1000000 t .exact = (⟨0x800000, false, false⟩, t + 1) := by
  have hlog : (0x1000000 : ℕ).log2 = 24 := by decide
  have hshift : (max (((0x1000000 : ℕ).log2 : ℤ) + t - 23) (-149) - t).toNat = 1 := by
    rw [hlog]
    omega
  rw [shiftToTargetExponent_eq, hshift]
  rfl

theorem roundWithAccuracy_eq {em : ExtendedMantissa}
    (hfirst : shiftToTargetExponent .binary32 m e accuracy = (em, t)) (ht : -149 ≤ t)
    (hR : em.roundedMantissa ≤ 0x1000000) :
    roundWithAccuracy .binary32 s m e accuracy = ofRounded s em.roundedMantissa t := by
  unfold roundWithAccuracy ofRounded
  rw [hfirst]
  dsimp only
  rcases Nat.lt_or_eq_of_le hR with hlt | heq
  · rw [shift_rounded ht hlt]
    simp only [if_pos hlt]
  · rw [heq, shift_rounded_up ht]
    rfl

theorem real_ofRounded (hR : R ≤ 0x1000000) :
    real (ofRounded s R t) = (s.apply R : ℤ) * 2 ^ t := by
  unfold ofRounded
  split_ifs with hzero hlt
  · rw [hzero]
    cases s <;> simp [real, Sign.apply]
  · rfl
  · have hfull : R = 0x1000000 := by omega
    rw [hfull, real_eq, zpow_add_one₀ two_ne_zero]
    cases s <;> simp only [Sign.apply] <;> push_cast <;> ring

theorem canonical_ofRounded (ht : -149 ≤ t) (h : 0x800000 ≤ R ∨ t = -149) :
    Canonical (ofRounded s R t) := by
  unfold ofRounded
  split_ifs with hzero hlt
  · trivial
  · exact ⟨hlt, ht, h⟩
  · exact ⟨by decide, by omega, .inl le_rfl⟩

theorem isFinite_ofRounded : (ofRounded s R t).isFinite = true := by
  unfold ofRounded
  split_ifs <;> rfl

end Rounded

/-! ## Approximated numbers -/

section Approximates

variable {s : Sign} {m : ℕ} {e : ℤ} {accuracy : Accuracy} {x : ℝ}

/-- What a mantissa with an accuracy says of the number that it stands for: it is less than one unit
above the mantissa, and equal to it exactly if the accuracy says so. -/
structure Approximates (m : ℕ) (e : ℤ) (accuracy : Accuracy) (x : ℝ) : Prop where
  le : m * 2 ^ e ≤ x
  lt : x < (m + 1) * 2 ^ e
  exact_iff : accuracy = .exact ↔ x = m * 2 ^ e

theorem approximates_exact (m : ℕ) (e : ℤ) : Approximates m e .exact (m * 2 ^ e) where
  le := le_rfl
  lt := by
    have : (0 : ℝ) < 2 ^ e := zpow_pos two_pos e
    linarith
  exact_iff := iff_of_true rfl rfl

theorem Faithful.signed {v : ℝ} (h : Faithful x v) (s : Sign) :
    Faithful (signed s x) (signed s v) := by
  cases s
  · exact h.neg
  · exact h

/-- Dropping `k` bits. -/
theorem Approximates.shift (h : Approximates m e accuracy x) (k : ℕ) :
    (m / 2 ^ k : ℕ) * 2 ^ (e + k) ≤ x ∧ x < ((m / 2 ^ k : ℕ) + 1) * (2 : ℝ) ^ (e + k)
      ∧ (x = (m / 2 ^ k : ℕ) * 2 ^ (e + k) → accuracy = .exact ∧ 2 ^ k ∣ m) := by
  have hpos : (0 : ℝ) < 2 ^ e := zpow_pos two_pos e
  have hpow (n : ℕ) : (n : ℝ) * 2 ^ (e + k) = (n * 2 ^ k : ℕ) * 2 ^ e := by
    rw [zpow_add₀ two_ne_zero, zpow_natCast]
    push_cast
    ring
  have hle : (m / 2 ^ k : ℕ) * (2 : ℝ) ^ (e + k) ≤ m * 2 ^ e := by
    rw [hpow]
    have : m / 2 ^ k * 2 ^ k ≤ m := Nat.div_mul_le_self _ _
    gcongr
  have hlt : ((m : ℝ) + 1) * 2 ^ e ≤ ((m / 2 ^ k : ℕ) + 1) * (2 : ℝ) ^ (e + k) := by
    have hm : m + 1 ≤ (m / 2 ^ k + 1) * 2 ^ k := by
      rw [Nat.mul_comm]
      exact Nat.lt_mul_div_succ m (Nat.two_pow_pos k)
    have hcast := hpow (m / 2 ^ k + 1)
    push_cast at hcast
    rw [hcast]
    have hm' : (m : ℝ) + 1 ≤ ((m / 2 ^ k : ℕ) + 1) * 2 ^ k := by exact_mod_cast hm
    gcongr
  refine ⟨hle.trans h.le, h.lt.trans_le hlt, ?_⟩
  intro hx
  have hm : (m : ℝ) * 2 ^ e = x := le_antisymm h.le (hx ▸ hle)
  refine ⟨h.exact_iff.2 hm.symm, ?_⟩
  rw [hx, hpow] at hm
  have hm' : m = m / 2 ^ k * 2 ^ k := by
    exact_mod_cast mul_right_cancel₀ hpos.ne' hm
  exact hm' ▸ Nat.dvd_mul_left _ _

/-- The mantissa that is left of a number when it is brought to the exponent of its size. -/
theorem mantissa_bounds {t : ℤ} (ht : t = max (m.log2 + e - 23) (-149)) (het : e ≤ t) :
    m / 2 ^ (t - e).toNat < 2 ^ 24 ∧ (t = -149 ∨ 2 ^ 23 ≤ m / 2 ^ (t - e).toNat) := by
  constructor
  · rw [Nat.div_lt_iff_lt_mul (Nat.two_pow_pos _), ← Nat.pow_add]
    calc m < 2 ^ (m.log2 + 1) := Nat.lt_log2_self
      _ ≤ 2 ^ (24 + (t - e).toNat) := Nat.pow_le_pow_right (by decide) (by omega)
  · by_cases hmin : t = -149
    · exact .inl hmin
    · right
      have hlog : m.log2 = 23 + (t - e).toNat := by omega
      have hm : m ≠ 0 := by
        rintro rfl
        rw [Nat.log2_zero] at hlog
        omega
      rw [Nat.le_div_iff_mul_le (Nat.two_pow_pos _), ← Nat.pow_add, ← hlog]
      exact Nat.log2_self_le hm

/-- A canonical form that a number is rounded to. -/
structure Rounds (x : ℝ) (u : UnpackedFloat) : Prop where
  canonical : Canonical u
  isFinite : u.isFinite = true
  faithful : Faithful x (real u)

/-- An approximated number is rounded, if there are enough bits in its mantissa or its exponent is
that of the smallest numbers. -/
theorem rounds_roundWithAccuracy (h : Approximates m e accuracy x)
    (he : 23 ≤ m.log2 ∨ e ≤ -149) (s : Sign) :
    Rounds (signed s x) (roundWithAccuracy .binary32 s m e accuracy) := by
  obtain ⟨t, ht⟩ : ∃ t : ℤ, t = max (m.log2 + e - 23) (-149) := ⟨_, rfl⟩
  have het : e ≤ t := by omega
  obtain ⟨hM, hnormal⟩ := mantissa_bounds ht het
  obtain ⟨hle, hlt, hexact⟩ := h.shift (t - e).toNat
  have hsum : e + ((t - e).toNat : ℤ) = t := by omega
  rw [hsum] at hle hlt hexact
  obtain ⟨em, hem⟩ : ∃ em, em = ExtendedMantissa.ofMantissaAndAccuracy m accuracy
      >>> (t - e).toNat := ⟨_, rfl⟩
  have hmantissa : em.mantissa = m / 2 ^ (t - e).toNat := by
    rw [hem, mantissa_shiftRight, mantissa_ofMantissaAndAccuracy]
  have hkeeps : KeepsAll em ↔ accuracy = .exact ∧ 2 ^ (t - e).toNat ∣ m := by
    rw [hem, keepsAll_shiftRight, keepsAll_ofMantissaAndAccuracy, mantissa_ofMantissaAndAccuracy]
  have hfirst : shiftToTargetExponent .binary32 m e accuracy = (em, t) := by
    rw [shiftToTargetExponent_eq, ← ht, hsum, ← hem]
  rw [← hmantissa] at hM hnormal hle hlt hexact
  have hcases := roundedMantissa_cases em
  have hR : em.roundedMantissa ≤ 0x1000000 := by omega
  have hmin : -149 ≤ t := by omega
  rw [roundWithAccuracy_eq hfirst hmin hR]
  refine ⟨canonical_ofRounded hmin (by omega), isFinite_ofRounded, ?_⟩
  rw [real_ofRounded hR, apply_mul]
  refine (faithful_of_grid hnormal hle hlt hcases fun hx => ?_).signed s
  exact roundedMantissa_eq (hkeeps.2 (hexact hx))

end Approximates

/-! ## Rounding of binary numbers -/

section Normalize

variable {m : ℕ} {e : ℤ}

theorem shiftLeft_mul_zpow (m k : ℕ) (e : ℤ) :
    ((m <<< k : ℕ) : ℝ) * 2 ^ (e - k) = m * 2 ^ e := by
  rw [Nat.shiftLeft_eq, zpow_sub₀ two_ne_zero, zpow_natCast]
  push_cast
  field_simp

theorem log2_shiftLeft (hm : 0 < m) (k : ℕ) : (m <<< k).log2 = m.log2 + k := by
  rw [Nat.shiftLeft_eq, Nat.log2_eq_iff (Nat.mul_ne_zero hm.ne' (Nat.two_pow_pos k).ne'),
    Nat.add_right_comm, Nat.pow_add, Nat.pow_add _ _ k]
  exact ⟨Nat.mul_le_mul_right _ (Nat.log2_self_le hm.ne'),
    Nat.mul_lt_mul_of_pos_right Nat.lt_log2_self (Nat.two_pow_pos k)⟩

theorem rounds_round (hm : 0 < m) (e : ℤ) (s : Sign) :
    Rounds (signed s (m * 2 ^ e)) (UnpackedFloat.round .binary32 s m e) := by
  obtain ⟨k, hk⟩ : ∃ k, k = (e - max (m.log2 + e - 23) (-149)).toNat := ⟨_, rfl⟩
  have hround : UnpackedFloat.round .binary32 s m e
      = roundWithAccuracy .binary32 s (m <<< k) (e - k) .exact := by
    rw [hk, ← targetExponent_eq]
    rfl
  have hlog := log2_shiftLeft hm k
  rw [hround, ← shiftLeft_mul_zpow m k e]
  exact rounds_roundWithAccuracy (approximates_exact _ _) (by omega) s

theorem rounds_zero (s : Sign) : Rounds 0 (.zero s) :=
  ⟨trivial, rfl, .refl 0⟩

theorem rounds_normalize (m e : ℤ) (s : Sign) :
    Rounds (m * 2 ^ e) (normalize .binary32 m e s) := by
  unfold UnpackedFloat.normalize
  split
  case h_1 hlt =>
    have hneg : m < 0 := Int.compare_eq_lt.1 hlt
    have hcast : (((-m).toNat : ℕ) : ℝ) = -(m : ℝ) := by
      have : (((-m).toNat : ℕ) : ℤ) = -m := by omega
      exact_mod_cast congrArg (Int.cast (R := ℝ)) this
    have h := rounds_round (m := (-m).toNat) (by omega) e .negative
    rwa [signed, hcast, neg_mul, neg_neg] at h
  case h_2 heq =>
    have hzero : m = 0 := Int.compare_eq_eq.1 heq
    rw [hzero, Int.cast_zero, zero_mul]
    exact rounds_zero s
  case h_3 hgt =>
    have hpos : 0 < m := Int.compare_eq_gt.1 hgt
    have hcast : ((m.toNat : ℕ) : ℝ) = (m : ℝ) := by
      have : ((m.toNat : ℕ) : ℤ) = m := by omega
      exact_mod_cast congrArg (Int.cast (R := ℝ)) this
    have h := rounds_round (m := m.toNat) (by omega) e .positive
    rwa [signed, hcast] at h

end Normalize

end NeighborSearch.Single
