import NeighborSearch.Proofs.Single.Arithmetic

/-!
# Whole numbers

Integers of up to 24 bits have room in single precision, so operations on them are exact as long as
their results are that small. This file gives

1. the operations;
2. the conversion of integers, small ones through machine words and large ones through decimals;
3. sums, from left to right and in accumulators: the order makes no difference, and each term counts
   once.
-/

namespace NeighborSearch.Single

open Float.Model Float.Model.UnpackedFloat

/-- A finite value that stands for an integer. -/
def Whole (x : Float32) (n : ℤ) : Prop :=
  x.isFinite = true ∧ value x = n

variable {x y : Float32} {m n : ℤ}

/-! ## Operations -/

theorem RoundsTo.whole {r : Float32} (h : RoundsTo n r) (hn : |n| ≤ 2 ^ 24) : Whole r n := by
  refine h.exact (representable_intCast hn) ?_
  rw [← Int.cast_abs]
  calc ((|n| : ℤ) : ℝ) ≤ (2 ^ 24 : ℤ) := by exact_mod_cast hn
    _ < 2 ^ (128 : ℤ) := by norm_num

theorem Whole.add (hx : Whole x m) (hy : Whole y n) (h : |m + n| ≤ 2 ^ 24) :
    Whole (x + y) (m + n) := by
  refine RoundsTo.whole ?_ h
  rw [Int.cast_add, ← hx.2, ← hy.2]
  exact roundsTo_add hx.1 hy.1

theorem Whole.sub (hx : Whole x m) (hy : Whole y n) (h : |m - n| ≤ 2 ^ 24) :
    Whole (x - y) (m - n) := by
  refine RoundsTo.whole ?_ h
  rw [Int.cast_sub, ← hx.2, ← hy.2]
  exact roundsTo_sub hx.1 hy.1

theorem Whole.mul (hx : Whole x m) (hy : Whole y n) (h : |m * n| ≤ 2 ^ 24) :
    Whole (x * y) (m * n) := by
  refine RoundsTo.whole ?_ h
  rw [Int.cast_mul, ← hx.2, ← hy.2]
  exact roundsTo_mul hx.1 hy.1

theorem Whole.neg (hx : Whole x n) (h : |n| ≤ 2 ^ 24) : Whole (-x) (-n) := by
  refine RoundsTo.whole ?_ (by rwa [abs_neg])
  rw [Int.cast_neg, ← hx.2]
  exact roundsTo_neg hx.1

/-! ## Integers as values -/

theorem whole_zero : Whole 0 0 :=
  ⟨isFinite_zero, by rw [value_of_bits_zero, Int.cast_zero]⟩

theorem whole_negativeZero : Whole negativeZero 0 :=
  ⟨by decide, by rw [Int.cast_zero]; rfl⟩

/-- The conversion of machine words. -/
theorem whole_toFloat32 {n : ℕ} (h : n ≤ 2 ^ 24) : Whole n.toUInt64.toFloat32 n := by
  have hword : (n.toUInt64.toNat : ℤ) = n := by
    rw [Nat.toUInt64, UInt64.toNat_ofNat', Nat.mod_eq_of_lt (by omega)]
  have hround : Rounds ((n.toUInt64.toNat : ℤ) * 2 ^ (0 : ℤ))
      (UnpackedFloat.ofUInt64 .binary32 n.toUInt64) := rounds_normalize _ 0 .positive
  rw [zpow_zero, mul_one, hword] at hround
  refine RoundsTo.whole (roundsTo_of_rounds hround) ?_
  rw [abs_of_nonneg (Int.natCast_nonneg n)]
  exact_mod_cast h

/-- The conversion of large numbers. -/
theorem whole_ofScientific {n : ℕ} (hpos : 0 < n) (h : n ≤ 2 ^ 24) :
    Whole (.ofModel (.ofScientific n 0)) n := by
  have hsize : ¬(0 : ℤ) < -((2 : ℤ) ^ 8 + n.log2) := by omega
  have hscientific : UnpackedFloat.ofScientific .binary32 n 0
      = roundWithAccuracy .binary32 .positive (n <<< 24 * 1) (-24 + 0) .exact := by
    unfold UnpackedFloat.ofScientific
    rw [dif_neg hpos.ne', if_neg (by decide), if_neg hsize, if_pos le_rfl]
    rfl
  have hbits : 23 ≤ (n <<< 24 * 1).log2 := by
    rw [Nat.mul_one, log2_shiftLeft hpos]
    omega
  have hround := rounds_roundWithAccuracy (approximates_exact (n <<< 24 * 1) (-24 + 0))
    (.inl hbits) .positive
  have hvalue : signed .positive ((n <<< 24 * 1 : ℕ) * (2 : ℝ) ^ (-24 + 0 : ℤ)) = (n : ℤ) := by
    have hshift := shiftLeft_mul_zpow n 24 0
    rw [zpow_zero, mul_one] at hshift
    rw [signed, Nat.mul_one, Int.cast_natCast]
    exact hshift
  rw [hvalue, ← hscientific] at hround
  refine RoundsTo.whole (roundsTo_of_rounds hround) ?_
  rw [abs_of_nonneg (Int.natCast_nonneg n)]
  exact_mod_cast h

theorem whole_ofNat {n : ℕ} (h : n ≤ 2 ^ 24) : Whole (Float32.ofNat n) n := by
  show Whole (Float32.ofScientific n false 0) n
  unfold Float32.ofScientific
  by_cases hsmall : n < 2 ^ 23 ∧ 0 ≤ 10
  · -- a small number is converted as a word and multiplied by one
    have hone : Whole (.ofBits 0x3F800000) 1 := by
      refine ⟨by decide, ?_⟩
      show ((0x800000 : ℕ) : ℤ) * (2 : ℝ) ^ (-23 : ℤ) = (1 : ℤ)
      norm_num
    rw [dif_pos hsmall, if_neg Bool.false_ne_true]
    have hproduct := (whole_toFloat32 h).mul hone (by
      rw [mul_one, abs_of_nonneg (Int.natCast_nonneg n)]
      exact_mod_cast h)
    rwa [mul_one] at hproduct
  · rw [dif_neg hsmall]
    exact whole_ofScientific (by omega) h

theorem unsigned_ofNat {n : ℕ} (h : n ≤ 2 ^ 24) : Unsigned (Float32.ofNat n) := by
  rcases Nat.eq_zero_or_pos n with rfl | hpos
  · exact unsigned_zero
  · obtain ⟨hfinite, hvalue⟩ := whole_ofNat h
    refine unsigned_of_pos ((lt_iff_value isFinite_zero hfinite).2 ?_)
    rw [hvalue, value_of_bits_zero]
    exact_mod_cast hpos

/-- The conversion of integers. -/
theorem whole_ofInt (h : |n| ≤ 2 ^ 24) : Whole (Float32.ofInt n) n := by
  cases n with
  | ofNat k =>
    have hk : (k : ℤ) ≤ 2 ^ 24 := (le_abs_self _).trans h
    exact whole_ofNat (by exact_mod_cast hk)
  | negSucc k =>
    rw [Int.negSucc_eq, abs_neg] at h
    have hk : k + 1 ≤ 2 ^ 24 := by exact_mod_cast (le_abs_self _).trans h
    exact (whole_ofNat hk).neg h

theorem forall₂_whole_ofInt {ns : List ℤ} (h : ∀ n ∈ ns, |n| ≤ 2 ^ 24) :
    List.Forall₂ Whole (ns.map Float32.ofInt) ns := by
  rw [List.forall₂_map_left_iff, List.forall₂_same]
  exact fun n hn => whole_ofInt (h n hn)

/-- An unsigned value that stands for an integer is the conversion of that integer. -/
theorem Whole.eq_ofInt (hx : Whole x n) (hx' : Unsigned x) (h : n ≤ 2 ^ 24) :
    x = Float32.ofInt n := by
  have hnonneg : 0 ≤ n := by
    have := hx'.value_nonneg hx.1
    rw [hx.2] at this
    exact_mod_cast this
  obtain ⟨k, rfl⟩ := Int.eq_ofNat_of_zero_le hnonneg
  have hk : k ≤ 2 ^ 24 := by exact_mod_cast h
  obtain ⟨hfinite, hvalue⟩ := whole_ofNat hk
  exact hx'.eq_of_value_eq (unsigned_ofNat hk) hx.1 hfinite (hx.2.trans hvalue.symm)

/-! ## Sums -/

section Sums

variable {terms lanes : List Float32} {ns ls : List ℤ}

/-- A sum of natural numbers is exact as long as its total is. -/
theorem Whole.foldl_add (hx : Whole x n) (hterms : List.Forall₂ Whole terms ns) (hn : 0 ≤ n)
    (hns : ∀ k ∈ ns, 0 ≤ k) (htotal : n + ns.sum ≤ 2 ^ 24) :
    Whole (terms.foldl (· + ·) x) (n + ns.sum) := by
  induction hterms generalizing x n with
  | nil => rwa [List.sum_nil, add_zero]
  | @cons term k rest ks hterm _ ih =>
    rw [List.forall_mem_cons] at hns
    have hsum : 0 ≤ ks.sum := List.sum_nonneg hns.2
    rw [List.sum_cons, ← add_assoc] at htotal ⊢
    refine ih (hx.add hterm ?_) (by omega) hns.2 htotal
    rw [abs_of_nonneg (by omega)]
    omega

theorem whole_sum (hterms : List.Forall₂ Whole terms ns) (hns : ∀ k ∈ ns, 0 ≤ k)
    (htotal : ns.sum ≤ 2 ^ 24) : Whole (sum terms) ns.sum := by
  have h := whole_negativeZero.foldl_add hterms le_rfl hns (by rwa [zero_add])
  rwa [zero_add] at h

/-- One accumulator takes a term, and the total of the accumulators grows by it. -/
theorem exists_addInTurn (hlanes : List.Forall₂ Whole lanes ls) (hne : ls ≠ [])
    (hls : ∀ l ∈ ls, 0 ≤ l) (hx : Whole x n) (hn : 0 ≤ n) (htotal : ls.sum + n ≤ 2 ^ 24) :
    ∃ ls' : List ℤ, List.Forall₂ Whole (addInTurn lanes x) ls' ∧ ls' ≠ [] ∧ (∀ l ∈ ls', 0 ≤ l)
      ∧ ls'.sum = ls.sum + n := by
  cases hlanes with
  | nil => exact absurd rfl hne
  | @cons lane l lanes ls hlane hrest =>
    rw [List.forall_mem_cons] at hls
    have hsum : 0 ≤ ls.sum := List.sum_nonneg hls.2
    rw [List.sum_cons] at htotal
    have hadded : Whole (lane + x) (l + n) := hlane.add hx (by
      rw [abs_of_nonneg (by omega)]
      omega)
    refine ⟨ls ++ [l + n], List.rel_append hrest (.cons hadded .nil), by simp, ?_, ?_⟩
    · intro k hk
      rw [List.mem_append, List.mem_singleton] at hk
      rcases hk with hk | rfl
      · exact hls.2 k hk
      · omega
    · rw [List.sum_append, List.sum_singleton, List.sum_cons]
      omega

/-- Through all rounds each term is added to exactly one accumulator. -/
theorem exists_foldl_addInTurn (hterms : List.Forall₂ Whole terms ns) (hns : ∀ k ∈ ns, 0 ≤ k)
    (hlanes : List.Forall₂ Whole lanes ls) (hne : ls ≠ []) (hls : ∀ l ∈ ls, 0 ≤ l)
    (htotal : ls.sum + ns.sum ≤ 2 ^ 24) :
    ∃ ls' : List ℤ, List.Forall₂ Whole (terms.foldl addInTurn lanes) ls' ∧ (∀ l ∈ ls', 0 ≤ l)
      ∧ ls'.sum = ls.sum + ns.sum := by
  induction hterms generalizing lanes ls with
  | nil => exact ⟨ls, hlanes, hls, by rw [List.sum_nil, add_zero]⟩
  | @cons term k rest ks hterm _ ih =>
    rw [List.forall_mem_cons] at hns
    have hsum : 0 ≤ ks.sum := List.sum_nonneg hns.2
    rw [List.sum_cons] at htotal ⊢
    obtain ⟨ls₁, hlanes₁, hne₁, hls₁, hsum₁⟩ :=
      exists_addInTurn hlanes hne hls hterm hns.1 (by omega)
    obtain ⟨ls', hlanes', hls', hsum'⟩ := ih hns.2 hlanes₁ hne₁ hls₁ (by omega)
    exact ⟨ls', hlanes', hls', by omega⟩

theorem exists_laneSums (hterms : List.Forall₂ Whole terms ns) (hns : ∀ k ∈ ns, 0 ≤ k)
    (htotal : ns.sum ≤ 2 ^ 24) :
    ∃ ls : List ℤ, List.Forall₂ Whole (laneSums terms) ls ∧ (∀ l ∈ ls, 0 ≤ l)
      ∧ ls.sum = ns.sum := by
  have hstart (count : ℕ) :
      List.Forall₂ Whole (List.replicate count 0) (List.replicate count 0) := by
    induction count with
    | zero => exact .nil
    | succ count ih => exact .cons whole_zero ih
  have hzero : (List.replicate laneCount (0 : ℤ)).sum = 0 := rfl
  have h := exists_foldl_addInTurn hterms hns (hstart laneCount) (by decide) (by decide)
    (by rwa [hzero, zero_add])
  rwa [hzero, zero_add] at h

/-- The lane sum of natural numbers is exact as long as their total is, for every number of terms
in the last, incomplete round. -/
theorem whole_laneSum (hterms : List.Forall₂ Whole terms ns) (hns : ∀ k ∈ ns, 0 ≤ k)
    (htotal : ns.sum ≤ 2 ^ 24) : Whole (laneSum terms) ns.sum := by
  obtain ⟨body, hbody⟩ : ∃ body, body = laneCount * (terms.length / laneCount) := ⟨_, rfl⟩
  have hsplit : (ns.take body).sum + (ns.drop body).sum = ns.sum :=
    List.sum_take_add_sum_drop ns body
  have htake : ∀ k ∈ ns.take body, 0 ≤ k := fun k hk => hns k (List.mem_of_mem_take hk)
  have hdrop : ∀ k ∈ ns.drop body, 0 ≤ k := fun k hk => hns k (List.mem_of_mem_drop hk)
  have hrest : 0 ≤ (ns.drop body).sum := List.sum_nonneg hdrop
  obtain ⟨ls, hlanes, hls, hsum⟩ :=
    exists_laneSums (List.forall₂_take body hterms) htake (by omega)
  have hrounds := whole_sum hlanes hls (by omega)
  have h := hrounds.foldl_add (List.forall₂_drop body hterms) (List.sum_nonneg hls) hdrop (by omega)
  rw [hsum, hsplit, hbody] at h
  exact h

end Sums

end NeighborSearch.Single
