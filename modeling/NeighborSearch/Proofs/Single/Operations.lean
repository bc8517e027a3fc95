import NeighborSearch.Proofs.Single.Rounding

/-!
# Operations on unpacked values

Sums, differences and products of finite values are exact before they are rounded. A quotient and a
root are cut off at enough bits, and whether they were exact is noted. So each operation rounds the
real number that it stands for.
-/

namespace NeighborSearch.Single

open Float.Model Float.Model.UnpackedFloat

variable {u v : UnpackedFloat}

/-! ## Sums and differences -/

section Sums

/-- What is canonical is its own rounding. -/
theorem rounds_self (hu : Canonical u) (h : u.isFinite = true) : Rounds (real u) u :=
  ⟨hu, h, .refl _⟩

theorem apply_shiftLeft_mul_zpow (s : Sign) (m : ℕ) {e t : ℤ} (h : t ≤ e) :
    (s.apply (m <<< (e - t).toNat : ℕ) : ℤ) * (2 : ℝ) ^ t = (s.apply m : ℤ) * 2 ^ e := by
  have ht : t = e - ((e - t).toNat : ℤ) := by omega
  have hm := shiftLeft_mul_zpow m (e - t).toNat e
  rw [← ht] at hm
  rw [apply_mul, apply_mul, hm]

theorem rounds_add (hu : Canonical u) (hv : Canonical v) (hu' : u.isFinite = true)
    (hv' : v.isFinite = true) : Rounds (real u + real v) (UnpackedFloat.add .binary32 u v) := by
  cases u with
  | notANumber => cases hu'
  | infinity s => cases hu'
  | zero s =>
    rw [real_zero, zero_add]
    cases v with
    | notANumber => cases hv'
    | infinity t => cases hv'
    | zero t => cases s <;> cases t <;> exact rounds_zero _
    | finite t m' e' hm' => exact rounds_self hv hv'
  | finite s m e hm =>
    cases v with
    | notANumber => cases hv'
    | infinity t => cases hv'
    | zero t =>
      rw [real_zero, add_zero]
      exact rounds_self hu hu'
    | finite t m' e' hm' =>
      -- both are brought to the smaller exponent, where nothing is lost
      have h := rounds_normalize (s.apply (m <<< (e - min e e').toNat : ℕ)
        + t.apply (m' <<< (e' - min e e').toNat : ℕ)) (min e e') .positive
      rw [Int.cast_add, add_mul, apply_shiftLeft_mul_zpow s m (min_le_left e e'),
        apply_shiftLeft_mul_zpow t m' (min_le_right e e')] at h
      exact h

theorem canonical_neg (h : Canonical u) : Canonical u.neg := by
  cases u <;> exact h

theorem isFinite_neg : u.neg.isFinite = u.isFinite := by
  cases u <;> rfl

/-- Taking away a value is adding the negated one. -/
theorem sub_eq_add (u v : UnpackedFloat) :
    UnpackedFloat.sub .binary32 u v = UnpackedFloat.add .binary32 u v.neg := by
  have happly (s : Sign) (n : ℤ) : (-s).apply n = -s.apply n := by
    cases s
    · exact (neg_neg n).symm
    · rfl
  cases u <;> cases v <;> try rfl
  case finite.finite s m e hm t m' e' hm' =>
    show normalize .binary32 (_ - _) _ _ = normalize .binary32 (_ + _) _ _
    rw [happly, ← sub_eq_add_neg]

theorem rounds_sub (hu : Canonical u) (hv : Canonical v) (hu' : u.isFinite = true)
    (hv' : v.isFinite = true) : Rounds (real u - real v) (UnpackedFloat.sub .binary32 u v) := by
  rw [sub_eq_add, sub_eq_add_neg, ← real_neg]
  exact rounds_add hu (canonical_neg hv) hu' (isFinite_neg.trans hv')

end Sums

/-! ## Products -/

section Products

theorem signed_mul_signed (s t : Sign) (x y : ℝ) :
    signed s x * signed t y = signed (s * t) (x * y) := by
  cases s <;> cases t
  · exact neg_mul_neg x y
  · exact neg_mul x y
  · exact mul_neg x y
  · rfl

theorem rounds_mul (hu : Canonical u) (hv : Canonical v) (hu' : u.isFinite = true)
    (hv' : v.isFinite = true) : Rounds (real u * real v) (UnpackedFloat.mul .binary32 u v) := by
  cases u with
  | notANumber => cases hu'
  | infinity s => cases hu'
  | zero s =>
    rw [real_zero, zero_mul]
    cases v with
    | notANumber => cases hv'
    | infinity t => cases hv'
    | zero t => exact rounds_zero _
    | finite t m' e' hm' => exact rounds_zero _
  | finite s m e hm =>
    cases v with
    | notANumber => cases hv'
    | infinity t => cases hv'
    | zero t =>
      rw [real_zero, mul_zero]
      exact rounds_zero _
    | finite t m' e' hm' =>
      -- a product lacks bits only if both factors do, and then its exponent is small
      have hbits : 23 ≤ (m * m').log2 ∨ e + e' ≤ -149 := by
        rw [Nat.le_log2 (Nat.mul_pos hm hm').ne']
        rcases hu.2.2 with hnormal | rfl
        · exact .inl (hnormal.trans (Nat.le_mul_of_pos_right m hm'))
        · rcases hv.2.2 with hnormal | rfl
          · exact .inl (hnormal.trans (Nat.le_mul_of_pos_left m' hm))
          · exact .inr (by decide)
      have h := rounds_roundWithAccuracy (approximates_exact (m * m') (e + e')) hbits (s * t)
      have hvalue : real (.finite s m e hm) * real (.finite t m' e' hm')
          = signed (s * t) ((m * m' : ℕ) * 2 ^ (e + e')) := by
        rw [real_finite, real_finite, signed_mul_signed, zpow_add₀ two_ne_zero, Nat.cast_mul,
          mul_mul_mul_comm]
      rw [hvalue]
      exact h

end Products

/-! ## Quotients -/

section Quotients

variable {s t : Sign} {m m' k : ℕ} {e e' q : ℤ}

theorem signed_div_signed (s t : Sign) (x y : ℝ) :
    signed s x / signed t y = signed (s / t) (x / y) := by
  cases s <;> cases t
  · exact neg_div_neg_eq x y
  · exact neg_div y x
  · exact div_neg x
  · rfl

/-- The quotient of two mantissas at the exponent that division chooses. -/
theorem approximates_quotient (m : ℕ) (hm' : 0 < m') (e : ℤ) :
    Approximates (m / m') e (accuracyOfFraction (m % m') m') (m / m' * 2 ^ e) := by
  have hpos : (0 : ℝ) < 2 ^ e := zpow_pos two_pos e
  have hm'' : (0 : ℝ) < m' := by exact_mod_cast hm'
  have hsplit : (m : ℝ) = m' * (m / m' : ℕ) + (m % m' : ℕ) := by
    exact_mod_cast (Nat.div_add_mod m m').symm
  have hrest : ((m % m' : ℕ) : ℝ) < m' := by exact_mod_cast Nat.mod_lt m hm'
  constructor
  · gcongr
    rw [le_div_iff₀ hm'']
    have : (0 : ℝ) ≤ (m % m' : ℕ) := Nat.cast_nonneg _
    linarith
  · gcongr
    rw [div_lt_iff₀ hm'']
    linarith
  · have hexact : accuracyOfFraction (m % m') m' = .exact ↔ m % m' = 0 := by
      unfold accuracyOfFraction
      split_ifs with h
      · exact iff_of_true rfl h
      · exact iff_of_false (fun h => by cases h) h
    rw [hexact, mul_left_inj' hpos.ne', div_eq_iff hm''.ne', hsplit]
    constructor
    · intro h
      rw [h]
      push_cast
      ring
    · intro h
      have : ((m % m' : ℕ) : ℝ) = 0 := by linarith
      exact_mod_cast this

/-- Division makes the dividend long enough for all the bits of a quotient. -/
theorem log2_quotient (hm : 0 < m) (hm' : 0 < m') (h : m'.log2 + 24 ≤ m.log2 + k) :
    23 ≤ (m <<< k / m').log2 := by
  have hlarge : 2 ^ 23 * m' ≤ m <<< k := by
    have hk := log2_shiftLeft hm k
    calc 2 ^ 23 * m' ≤ 2 ^ 23 * 2 ^ (m'.log2 + 1) :=
          Nat.mul_le_mul_left _ Nat.lt_log2_self.le
      _ = 2 ^ (m'.log2 + 24) := by rw [← Nat.pow_add]; congr 1; omega
      _ ≤ 2 ^ (m <<< k).log2 := Nat.pow_le_pow_right (by decide) (by omega)
      _ ≤ m <<< k := Nat.log2_self_le (by
        rw [Nat.shiftLeft_eq]
        exact Nat.mul_ne_zero hm.ne' (Nat.two_pow_pos k).ne')
  have hquotient : 2 ^ 23 ≤ m <<< k / m' := (Nat.le_div_iff_mul_le hm').2 hlarge
  exact (Nat.le_log2 (by omega)).2 hquotient

/-- What division divides: the dividend, shifted to an exponent at which a quotient has enough bits
or the smallest exponent. -/
theorem divCore_eq (hq : q = min (e - e') (max (m.log2 + e - m'.log2 - e' - 24) (-149)))
    (hk : k = (e - e' - q).toNat) :
    divCore .binary32 m e m' e' = (m <<< k / m', q, accuracyOfFraction (m <<< k % m') m') := by
  have htarget : Format.binary32.targetExponent (totalExponent m e - totalExponent m' e')
      = max (m.log2 + e - m'.log2 - e' - 24) (-149) := by
    show max ((m.log2 : ℤ) + 1 + e - (m'.log2 + 1 + e') - 24) (-149) = _
    congr 1
    omega
  unfold divCore
  rw [htarget, ← hq]
  dsimp only
  rw [← hk]

/-- A shifted dividend has the same quotient at the other exponent. -/
theorem div_mul_zpow (hm' : 0 < m') (h : e = q + k + e') :
    (m : ℝ) * 2 ^ e / (m' * 2 ^ e') = (m <<< k : ℕ) / m' * 2 ^ q := by
  have hpow : (2 : ℝ) ^ e = 2 ^ q * 2 ^ k * 2 ^ e' := by
    rw [h, zpow_add₀ two_ne_zero, zpow_add₀ two_ne_zero, zpow_natCast]
  have hne : (m' : ℝ) ≠ 0 := by exact_mod_cast hm'.ne'
  have he' : (2 : ℝ) ^ e' ≠ 0 := zpow_ne_zero _ two_ne_zero
  rw [hpow, Nat.shiftLeft_eq]
  push_cast
  field_simp

theorem rounds_div_finite (hm : 0 < m) (hm' : 0 < m') :
    Rounds (real (.finite s m e hm) / real (.finite t m' e' hm'))
      (UnpackedFloat.div .binary32 (.finite s m e hm) (.finite t m' e' hm')) := by
  obtain ⟨q, hq⟩ : ∃ q : ℤ, q = min (e - e') (max (m.log2 + e - m'.log2 - e' - 24) (-149)) :=
    ⟨_, rfl⟩
  obtain ⟨k, hk⟩ : ∃ k : ℕ, k = (e - e' - q).toNat := ⟨_, rfl⟩
  have hbits : 23 ≤ (m <<< k / m').log2 ∨ q ≤ -149 := by
    by_cases hmin : q ≤ -149
    · exact .inr hmin
    · exact .inl (log2_quotient hm hm' (by omega))
  have hexponent : e = q + k + e' := by omega
  have hvalue : real (.finite s m e hm) / real (.finite t m' e' hm')
      = signed (s / t) ((m <<< k : ℕ) / m' * 2 ^ q) := by
    rw [real_finite, real_finite, signed_div_signed, div_mul_zpow hm' hexponent]
  have h := rounds_roundWithAccuracy (approximates_quotient (m <<< k) hm' q) hbits (s / t)
  rw [hvalue]
  show Rounds _ (roundWithAccuracy .binary32 (s / t) (divCore .binary32 m e m' e').1
    (divCore .binary32 m e m' e').2.1 (divCore .binary32 m e m' e').2.2)
  rw [divCore_eq hq hk]
  exact h

theorem rounds_div (hu : u.isFinite = true) (hv : v.isFinite = true) (hne : real v ≠ 0) :
    Rounds (real u / real v) (UnpackedFloat.div .binary32 u v) := by
  cases v with
  | notANumber => cases hv
  | infinity t => cases hv
  | zero t => exact absurd rfl hne
  | finite t m' e' hm' =>
    cases u with
    | notANumber => cases hu
    | infinity s => cases hu
    | zero s =>
      rw [real_zero, zero_div]
      exact rounds_zero _
    | finite s m e hm => exact rounds_div_finite hm hm'

end Quotients

/-! ## Roots -/

section Roots

variable {m k : ℕ} {e t : ℤ}

/-- The root of a mantissa at the exponent that the square root chooses. -/
theorem approximates_root (m : ℕ) (e : ℤ) :
    Approximates (Nat.sqrt m) e
      (if m - Nat.sqrt m * Nat.sqrt m = 0 then .exact
        else .inexact (if m - Nat.sqrt m * Nat.sqrt m ≤ Nat.sqrt m then .lt else .gt))
      (√m * 2 ^ e) := by
  have hpos : (0 : ℝ) < 2 ^ e := zpow_pos two_pos e
  have hle : (Nat.sqrt m * Nat.sqrt m : ℕ) ≤ m := Nat.sqrt_le m
  constructor
  · gcongr
    rw [Real.le_sqrt (Nat.cast_nonneg _) (Nat.cast_nonneg _), pow_two]
    exact_mod_cast hle
  · gcongr
    rw [Real.sqrt_lt' (by positivity), pow_two]
    exact_mod_cast Nat.lt_succ_sqrt m
  · have hexact : √(m : ℝ) = (Nat.sqrt m : ℕ) ↔ m - Nat.sqrt m * Nat.sqrt m = 0 := by
      rw [Real.sqrt_eq_iff_mul_self_eq (Nat.cast_nonneg _) (Nat.cast_nonneg _)]
      constructor
      · intro h
        have : m = Nat.sqrt m * Nat.sqrt m := by exact_mod_cast h
        omega
      · intro h
        have : m = Nat.sqrt m * Nat.sqrt m := by omega
        exact_mod_cast this
    rw [mul_left_inj' hpos.ne', hexact]
    by_cases h : m - Nat.sqrt m * Nat.sqrt m = 0
    · rw [if_pos h]
      exact iff_of_true rfl h
    · rw [if_neg h]
      exact iff_of_false (fun h => by cases h) h

/-- The square root makes its operand long enough for all the bits of a root. -/
theorem log2_root (hm : 0 < m) (h : 46 ≤ m.log2 + k) : 23 ≤ (Nat.sqrt (m <<< k)).log2 := by
  have hne : m <<< k ≠ 0 := by
    rw [Nat.shiftLeft_eq]
    exact Nat.mul_ne_zero hm.ne' (Nat.two_pow_pos k).ne'
  have hlarge : 2 ^ 46 ≤ m <<< k := by
    rwa [← Nat.le_log2 hne, log2_shiftLeft hm]
  have hroot : 2 ^ 23 ≤ Nat.sqrt (m <<< k) := by
    rw [Nat.le_sqrt, ← Nat.pow_add]
    exact hlarge
  exact (Nat.le_log2 (by omega)).2 hroot

/-- A shifted operand has the same root at half the exponent. -/
theorem sqrt_mul_zpow (m : ℕ) (h : e = k + (t + t)) :
    √(m * 2 ^ e) = √((m <<< k : ℕ) : ℝ) * 2 ^ t := by
  have hsquare : (m : ℝ) * 2 ^ e = (m <<< k : ℕ) * (2 ^ t * 2 ^ t) := by
    rw [h, Nat.shiftLeft_eq, zpow_add₀ two_ne_zero, zpow_add₀ two_ne_zero, zpow_natCast]
    push_cast
    ring
  have hpos : (0 : ℝ) ≤ 2 ^ t := (zpow_pos two_pos t).le
  rw [hsquare, Real.sqrt_mul (Nat.cast_nonneg _), Real.sqrt_mul_self hpos]

theorem rounds_sqrt_finite (hm : 0 < m) :
    Rounds (√(real (.finite .positive m e hm)))
      (UnpackedFloat.sqrt .binary32 (.finite .positive m e hm)) := by
  obtain ⟨t, ht⟩ : ∃ t : ℤ, t = min (e / 2) (max ((m.log2 + 1 + e + 1) / 2 - 24) (-149)) :=
    ⟨_, rfl⟩
  obtain ⟨k, hk⟩ : ∃ k : ℕ, k = (e - 2 * t).toNat := ⟨_, rfl⟩
  have hbits : 23 ≤ (Nat.sqrt (m <<< k)).log2 ∨ t ≤ -149 := by
    by_cases hmin : t ≤ -149
    · exact .inr hmin
    · exact .inl (log2_root hm (by omega))
  have hexponent : e = k + (t + t) := by omega
  have hvalue : √(real (.finite .positive m e hm)) = √((m <<< k : ℕ) : ℝ) * 2 ^ t := by
    rw [real_finite, signed, sqrt_mul_zpow m hexponent]
  have h := rounds_roundWithAccuracy (approximates_root (m <<< k) t) hbits .positive
  rw [hvalue]
  subst hk ht
  exact h

/-- The square root of a number that is not negative. -/
theorem rounds_sqrt (hu : u.isFinite = true) (hnonneg : 0 ≤ real u) :
    Rounds (√(real u)) (UnpackedFloat.sqrt .binary32 u) := by
  cases u with
  | notANumber => cases hu
  | infinity s => cases hu
  | zero s =>
    rw [real_zero, Real.sqrt_zero]
    exact rounds_zero s
  | finite s m e hm =>
    cases s with
    | positive => exact rounds_sqrt_finite hm
    | negative =>
      -- a finite number with the sign bit is negative
      have hneg : real (.finite .negative m e hm) < 0 := by
        have hm' : (0 : ℝ) < m := by exact_mod_cast hm
        have hpos : (0 : ℝ) < m * 2 ^ e := mul_pos hm' (zpow_pos two_pos e)
        rw [real_finite, signed]
        linarith
      exact absurd hnonneg (not_le.2 hneg)

end Roots

end NeighborSearch.Single
