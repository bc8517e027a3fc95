import NeighborSearch.Proofs.Distance.Norm
import NeighborSearch.Proofs.Ranking.Distances
import NeighborSearch.Proofs.Single.Infinities

/-!
# The range of similarities

A similarity is clamped to `[-1, 1]`, so it is in range as soon as it is a number. It is none where
the sum of products and the product of the norms overflow both: then it is a quotient of infinities.
The distance hides this, as it takes the positive part of what is left from one.
-/

namespace NeighborSearch

open Single (Unsigned value largest)

variable {a b : List Float32} {x y : Float32}

/-! ## Clamping -/

section Clamping

theorem unpack_of_isNaN (hx : x.isNaN = true) : x.toModel.unpack = .notANumber := by
  by_contra hne
  rw [Single.isNaN_eq_false_iff.2 hne] at hx
  cases hx

theorem isFinite_clampToUnit (hx : x.isNaN = false) : (clampToUnit x).isFinite = true := by
  unfold clampToUnit
  split_ifs with hlow hhigh
  · decide
  · decide
  · by_contra hx'
    obtain ⟨s, hs⟩ := Single.exists_unpack_eq_infinity (Bool.eq_false_of_not_eq_true hx') hx
    cases s with
    | negative => exact hlow (Single.lt_iff_compare.2 (by rw [hs]; rfl))
    | positive => exact hhigh (Single.lt_iff_compare.2 (by rw [hs]; rfl))

theorem value_one : value 1 = 1 := by
  show ((0x800000 : ℕ) : ℤ) * (2 : ℝ) ^ (-23 : ℤ) = 1
  norm_num

theorem value_neg_one : value (-1) = -1 := by
  show ((-(0x800000 : ℕ) : ℤ) : ℝ) * (2 : ℝ) ^ (-23 : ℤ) = -1
  norm_num

theorem value_two : value 2 = 2 := by
  show ((0x800000 : ℕ) : ℤ) * (2 : ℝ) ^ (-22 : ℤ) = 2
  norm_num

theorem isNaN_clampToUnit (x : Float32) : (clampToUnit x).isNaN = x.isNaN := by
  cases hx : x.isNaN with
  | false => exact Single.isNaN_of_isFinite (isFinite_clampToUnit hx)
  | true =>
    have hu := unpack_of_isNaN hx
    have hlow : ¬x < -1 := by
      rw [Single.lt_iff_compare, hu]
      exact nofun
    have hhigh : ¬1 < x := by
      rw [Single.lt_iff_compare, hu]
      cases hone : (1 : Float32).toModel.unpack <;> exact nofun
    rw [clampToUnit, if_neg hlow, if_neg hhigh, hx]

theorem value_clampToUnit_bounds (hx : x.isNaN = false) :
    -1 ≤ value (clampToUnit x) ∧ value (clampToUnit x) ≤ 1 := by
  have hfinite := isFinite_clampToUnit hx
  unfold clampToUnit at hfinite ⊢
  split_ifs at hfinite ⊢ with hlow hhigh
  · rw [value_neg_one]
    norm_num
  · rw [value_one]
    norm_num
  · rw [Single.lt_iff_value hfinite (by decide), value_neg_one, not_lt] at hlow
    rw [Single.lt_iff_value (by decide) hfinite, value_one, not_lt] at hhigh
    exact ⟨hlow, hhigh⟩

theorem clampToUnit_le_zero (hx : x ≤ 0) : clampToUnit x ≤ 0 := by
  unfold clampToUnit
  split_ifs with hlow hhigh
  · decide
  · -- one is not below what is not above zero
    exfalso
    by_cases hx' : x.isFinite = true
    · rw [Single.lt_iff_value (by decide) hx', value_one] at hhigh
      have := Single.value_nonpos hx hx'
      linarith
    · rw [Single.lt_iff_compare,
        Single.unpack_of_le_zero hx (Bool.eq_false_of_not_eq_true hx')] at hhigh
      cases hhigh
  · exact hx

end Clamping

/-! ## What is left from one -/

section Difference

variable (hx : x.isFinite = true) (hlower : -1 ≤ value x) (hupper : value x ≤ 1)

include hx hlower hupper

theorem one_sub_bounds : Unsigned (1 - x) ∧ (1 - x).isFinite = true ∧ value (1 - x) ≤ 2 := by
  have hround := Single.roundsTo_sub (y := 1) (by decide) hx
  rw [value_one] at hround
  have hfinite : (1 - x).isFinite = true := by
    refine hround.isFinite_of_le ?_
    unfold largest
    rw [abs_le]
    norm_num
    constructor <;> linarith
  refine ⟨?_, hfinite, ?_⟩
  · refine (Single.isNaN_or_unsigned_one_sub ?_).resolve_left ?_
    · rw [Single.lt_iff_value (by decide) hx, value_one]
      exact not_lt.2 hupper
    · rw [hround.isNaN]
      exact Bool.false_ne_true
  · refine (hround.faithful hfinite).le_of_le 2 ?_ (by linarith)
    exact_mod_cast Single.representable_intCast (n := 2) (by decide)

theorem one_le_value_one_sub (hx' : value x ≤ 0) : 1 ≤ value (1 - x) := by
  have hround := Single.roundsTo_sub (y := 1) (by decide) hx
  rw [value_one] at hround
  refine (hround.faithful (one_sub_bounds hx hlower hupper).2.1).le_of_ge 1 ?_ (by linarith)
  exact_mod_cast Single.representable_intCast (n := 1) (by decide)

end Difference

theorem positivePart_of_isNaN (hx : x.isNaN = true) : positivePart x = 0 := by
  have hpos : ¬0 < x := by
    intro hlt
    rw [(Single.unsigned_of_pos hlt).isNaN] at hx
    cases hx
  exact if_neg hpos

theorem positivePart_of_unsigned (hx : Unsigned x) : positivePart x = x := by
  unfold positivePart
  split_ifs with hpos
  · rfl
  · rw [Single.lt_iff_of_unsigned Single.unsigned_zero hx,
      Single.totalCompare_of_unsigned Single.unsigned_zero hx, Nat.compare_eq_lt, not_lt] at hpos
    have hzero : x.toBits.toNat = 0 := Nat.le_zero.1 hpos
    rw [← Float32.toBits_inj, ← UInt32.toNat_inj, hzero]
    rfl

/-! ## Norms -/

section Norms

variable (ha : ∀ x ∈ a, x.isFinite = true) (hb : ∀ y ∈ b, y.isFinite = true)

/-- A component whose square is finite is below the root of what overflows. -/
theorem abs_value_le_of_mul_self (hx : x.isFinite = true) (h : (x * x).isFinite = true) :
    |value x| ≤ (2 ^ 24 - 1) * 2 ^ (40 : ℤ) := by
  by_contra hlarge
  rw [not_le] at hlarge
  have hsq : (2 : ℝ) ^ (128 : ℤ) ≤ value x ^ 2 := by
    -- the next magnitude with room is `2 ^ 64`
    have habs : 2 ^ (64 : ℤ) ≤ |value x| := by
      rcases (Single.representable_value x).abs.on_grid 40 with ⟨k, hk⟩ | ⟨_, hsmall⟩
      · rw [hk] at hlarge ⊢
        have hpos : (0 : ℝ) < 2 ^ (40 : ℤ) := zpow_pos two_pos _
        have hk' : (2 ^ 24 - 1 : ℝ) < k := lt_of_mul_lt_mul_right hlarge hpos.le
        have hk'' : ((2 ^ 24 : ℤ) : ℝ) ≤ k := by
          have : (2 ^ 24 - 1 : ℤ) < k := by exact_mod_cast hk'
          have : (2 ^ 24 : ℤ) ≤ k := by omega
          exact_mod_cast this
        calc (2 : ℝ) ^ (64 : ℤ) = ((2 ^ 24 : ℤ) : ℝ) * 2 ^ (40 : ℤ) := by norm_num
          _ ≤ k * 2 ^ (40 : ℤ) := by gcongr
      · norm_num at hlarge hsmall
        linarith
    calc (2 : ℝ) ^ (128 : ℤ) = (2 ^ (64 : ℤ)) ^ 2 := by norm_num
      _ ≤ |value x| ^ 2 := by gcongr
      _ = value x ^ 2 := sq_abs _
  have hge := ((Single.roundsTo_mul hx hx).faithful h).le_of_ge _
    (Single.representable_two_zpow (e := 128) (by decide)) (by rwa [← pow_two])
  have hle := (le_abs_self _).trans (Single.abs_value_le_largest (x * x))
  have := Single.largest_lt
  linarith

include ha hb in
/-- Components whose squares are finite have finite products. -/
theorem isFinite_products (ha' : (dotProduct a a).isFinite = true)
    (hb' : (dotProduct b b).isFinite = true) :
    ∀ z ∈ List.zipWith (· * ·) a b, z.isFinite = true := by
  intro z hz
  rw [List.mem_iff_getElem?] at hz
  obtain ⟨i, hi⟩ := hz
  obtain ⟨x, y, hx, hy, rfl⟩ := List.getElem?_zipWith_eq_some.1 hi
  have hx' := List.mem_of_getElem? hx
  have hy' := List.mem_of_getElem? hy
  have hxle := abs_value_le_of_mul_self (ha x hx') (isFinite_mul_self_of_dotProduct ha ha' x hx')
  have hyle := abs_value_le_of_mul_self (hb y hy') (isFinite_mul_self_of_dotProduct hb hb' y hy')
  refine (Single.roundsTo_mul (ha x hx') (hb y hy')).isFinite_of_le ?_
  rw [abs_mul]
  calc |value x| * |value y|
      ≤ ((2 ^ 24 - 1) * 2 ^ (40 : ℤ)) * ((2 ^ 24 - 1) * 2 ^ (40 : ℤ)) := by gcongr
    _ ≤ largest := by
      unfold largest
      norm_num

include ha in
theorem unsigned_norm (hne : a ≠ []) : Unsigned (norm a) := by
  rw [norm, dotProduct_self]
  exact (Single.unsigned_sum (by simpa using hne) (unsigned_squares ha)).sqrt

include ha in
/-- A norm that is not below the threshold is above zero. -/
theorem norm_pos (h : ¬norm a < normThreshold) : 0 < norm a := by
  have hne : a ≠ [] := by
    rintro rfl
    exact h (by decide)
  have hunsigned := unsigned_norm ha hne
  have hthreshold : Unsigned normThreshold := by decide
  rw [Single.lt_iff_of_unsigned hunsigned hthreshold,
    Single.totalCompare_of_unsigned hunsigned hthreshold, Nat.compare_eq_lt, not_lt] at h
  rw [Single.lt_iff_of_unsigned Single.unsigned_zero hunsigned,
    Single.totalCompare_of_unsigned Single.unsigned_zero hunsigned, Nat.compare_eq_lt]
  exact lt_of_lt_of_le (by decide) h

end Norms

/-! ## Similarities -/

section Similarity

theorem cosineSimilarity_of_small (h : norm a < normThreshold ∨ norm b < normThreshold) :
    cosineSimilarity a b = 0 :=
  if_pos h

theorem cosineSimilarity_of_not_small (h : ¬(norm a < normThreshold ∨ norm b < normThreshold)) :
    cosineSimilarity a b = clampToUnit (dotProduct a b / (norm a * norm b)) :=
  if_neg h

/-- A similarity that is a number is in range. -/
theorem value_cosineSimilarity_bounds (h : (cosineSimilarity a b).isNaN = false) :
    (cosineSimilarity a b).isFinite = true
      ∧ -1 ≤ value (cosineSimilarity a b) ∧ value (cosineSimilarity a b) ≤ 1 := by
  by_cases hsmall : norm a < normThreshold ∨ norm b < normThreshold
  · rw [cosineSimilarity_of_small hsmall, Single.value_of_bits_zero]
    exact ⟨Single.isFinite_zero, by norm_num, by norm_num⟩
  · rw [cosineSimilarity_of_not_small hsmall] at h ⊢
    rw [isNaN_clampToUnit] at h
    exact ⟨isFinite_clampToUnit h, value_clampToUnit_bounds h⟩

variable (ha : ∀ x ∈ a, x.isFinite = true) (hb : ∀ y ∈ b, y.isFinite = true)

include ha hb

/-- The product of norms that are not below the threshold does not vanish. -/
theorem mul_norms_pos (hnorm : ¬norm a < normThreshold) (hnorm' : ¬norm b < normThreshold) :
    0 < norm a * norm b := by
  have hpos := norm_pos ha hnorm
  have hpos' := norm_pos hb hnorm'
  by_cases hfinite : (norm a * norm b).isFinite = true
  · obtain ⟨hx, hy⟩ := Single.isFinite_of_mul hpos hpos' hfinite
    rw [Single.lt_iff_value hx isFinite_normThreshold, value_normThreshold, not_lt] at hnorm
    rw [Single.lt_iff_value hy isFinite_normThreshold, value_normThreshold, not_lt] at hnorm'
    rw [Single.lt_iff_value Single.isFinite_zero hfinite, Single.value_of_bits_zero]
    have hproduct : 2 ^ (-46 : ℤ) ≤ value (norm a) * value (norm b) := by
      calc (2 : ℝ) ^ (-46 : ℤ) = 2 ^ (-23 : ℤ) * 2 ^ (-23 : ℤ) := by norm_num
        _ ≤ value (norm a) * value (norm b) := by gcongr
    have hle := ((Single.roundsTo_mul hx hy).faithful hfinite).le_of_ge _
      (Single.representable_two_zpow (by decide)) hproduct
    exact lt_of_lt_of_le (zpow_pos two_pos _) hle
  · have hinfinity := (Single.unsigned_mul_of_pos hpos hpos').eq_infinity
      (Bool.eq_false_of_not_eq_true hfinite)
    rw [Single.lt_iff_compare, hinfinity]
    rfl

/-- A similarity is not a number exactly if both parts of the quotient overflow. -/
theorem isNaN_cosineSimilarity_iff :
    (cosineSimilarity a b).isNaN = true
      ↔ ¬norm a < normThreshold ∧ ¬norm b < normThreshold
        ∧ (norm a * norm b).isFinite = false ∧ (dotProduct a b).isFinite = false := by
  by_cases hsmall : norm a < normThreshold ∨ norm b < normThreshold
  · rw [cosineSimilarity_of_small hsmall]
    exact iff_of_false (by decide) fun h => hsmall.elim h.1 h.2.1
  · rw [cosineSimilarity_of_not_small hsmall, isNaN_clampToUnit]
    obtain ⟨hnorm, hnorm'⟩ := not_or.1 hsmall
    have hpos := norm_pos ha hnorm
    have hpos' := norm_pos hb hnorm'
    by_cases hfinite : (norm a * norm b).isFinite = true
    · -- then no square of a component overflows, and so no product
      obtain ⟨hx, hy⟩ := Single.isFinite_of_mul hpos hpos' hfinite
      have hterms := isFinite_products ha hb ((isFinite_norm_iff ha).1 hx)
        ((isFinite_norm_iff hb).1 hy)
      have hquotient := Single.isNaN_div (Single.isNaN_sum hterms)
        (mul_norms_pos ha hb hnorm hnorm') hfinite
      refine iff_of_false ?_ ?_
      · rw [show dotProduct a b = Single.sum (List.zipWith (· * ·) a b) from rfl, hquotient]
        exact Bool.false_ne_true
      · intro h
        rw [hfinite] at h
        cases h.2.2.1
    · have hinfinite := Bool.eq_false_of_not_eq_true hfinite
      have hinfinity := (Single.unsigned_mul_of_pos hpos hpos').eq_infinity hinfinite
      rw [Single.isNaN_div_infinity hinfinity, Bool.not_eq_true']
      exact ⟨fun h => ⟨hnorm, hnorm', hinfinite, h⟩, fun h => h.2.2.2⟩

/-- Vectors that are not too large have a similarity. -/
theorem isNaN_cosineSimilarity_of_exactNorm_le (hlength : a.length ≤ 2 ^ 22)
    (hlength' : b.length ≤ 2 ^ 22) (h : exactNorm a ≤ 2 ^ (62 : ℤ))
    (h' : exactNorm b ≤ 2 ^ (62 : ℤ)) : (cosineSimilarity a b).isNaN = false := by
  obtain ⟨hx, hxle⟩ := value_norm_le ha hlength h
  obtain ⟨hy, hyle⟩ := value_norm_le hb hlength' h'
  have hfinite : (norm a * norm b).isFinite = true := by
    refine (Single.roundsTo_mul hx hy).isFinite_of_le ?_
    have hx0 := value_norm_nonneg ha hx
    have hy0 := value_norm_nonneg hb hy
    rw [abs_of_nonneg (mul_nonneg hx0 hy0)]
    calc value (norm a) * value (norm b) ≤ 2 ^ (63 : ℤ) * 2 ^ (63 : ℤ) := by gcongr
      _ ≤ largest := by
        unfold largest
        norm_num
  rw [Bool.eq_false_iff, ne_eq, isNaN_cosineSimilarity_iff ha hb, hfinite]
  exact fun h => Bool.noConfusion h.2.2.1

end Similarity

/-! ## Opposite vectors -/

section Opposed

/-- Two vectors that point in opposite directions. -/
def Opposed (a b : List Float32) : Prop :=
  ∃ c : ℝ, 0 < c ∧ List.Forall₂ (fun x y => value y = -(c * value x)) a b

variable (ha : ∀ x ∈ a, x.isFinite = true) (hb : ∀ y ∈ b, y.isFinite = true)

include ha hb

theorem products_le_zero (h : Opposed a b) : ∀ z ∈ List.zipWith (· * ·) a b, z ≤ 0 := by
  obtain ⟨c, hc, hopposed⟩ := h
  induction hopposed with
  | nil => exact nofun
  | @cons x y a b hxy _ ih =>
    rw [List.forall_mem_cons] at ha hb
    rw [List.zipWith_cons_cons, List.forall_mem_cons]
    refine ⟨(Single.roundsTo_mul ha.1 hb.1).le_zero ?_, ih ha.2 hb.2⟩
    rw [hxy]
    nlinarith [mul_nonneg hc.le (mul_self_nonneg (value x))]

theorem cosineSimilarity_le_zero (h : Opposed a b)
    (hnumber : (cosineSimilarity a b).isNaN = false) : cosineSimilarity a b ≤ 0 := by
  by_cases hsmall : norm a < normThreshold ∨ norm b < normThreshold
  · rw [cosineSimilarity_of_small hsmall]
    decide
  · rw [cosineSimilarity_of_not_small hsmall] at hnumber ⊢
    rw [isNaN_clampToUnit] at hnumber
    obtain ⟨hnorm, hnorm'⟩ := not_or.1 hsmall
    exact clampToUnit_le_zero (Single.div_le_zero (Single.sum_le_zero (products_le_zero ha hb h))
      (mul_norms_pos ha hb hnorm hnorm') hnumber)

end Opposed

/-! ## Distances -/

section Distance

theorem distance_of_isNaN (h : (cosineSimilarity a b).isNaN = true) :
    Metric.cosine.distance a b = 0 := by
  refine positivePart_of_isNaN (Single.isNaN_sub ?_)
  rw [unpack_of_isNaN h]
  rfl

/-- Where the similarity is a number, the distance is what is left from one. -/
theorem distance_of_isNaN_eq_false (h : (cosineSimilarity a b).isNaN = false) :
    Metric.cosine.distance a b = 1 - cosineSimilarity a b := by
  obtain ⟨hfinite, hlower, hupper⟩ := value_cosineSimilarity_bounds h
  exact positivePart_of_unsigned (one_sub_bounds hfinite hlower hupper).1

/-- The similarity of vectors of finite values is not a number exactly if both the product of their
norms and the sum of their products overflow. It is a number if the vectors have at most `2 ^ 22`
components and exact norms of at most `2 ^ 62`. Where it is a number, it is in `[-1, 1]`, the distance
is one less the similarity and in `[0, 2]`, and the distance of vectors that point in opposite
directions is at least one. Where it is none, the distance is zero, whatever the directions are. -/
theorem cosineSimilarity_range (a b : List Float32) (ha : a.all Float32.isFinite = true)
    (hb : b.all Float32.isFinite = true) :
    ((cosineSimilarity a b).isNaN = true
      ↔ ¬norm a < normThreshold ∧ ¬norm b < normThreshold
        ∧ (norm a * norm b).isFinite = false ∧ (dotProduct a b).isFinite = false)
    ∧ (a.length ≤ 2 ^ 22 → b.length ≤ 2 ^ 22 →
        exactNorm a ≤ 2 ^ (62 : ℤ) → exactNorm b ≤ 2 ^ (62 : ℤ) →
        (cosineSimilarity a b).isNaN = false)
    ∧ ((cosineSimilarity a b).isNaN = false →
        (-1 ≤ cosineSimilarity a b ∧ cosineSimilarity a b ≤ 1)
        ∧ Metric.cosine.distance a b = 1 - cosineSimilarity a b
        ∧ (0 ≤ Metric.cosine.distance a b ∧ Metric.cosine.distance a b ≤ 2)
        ∧ (Opposed a b → 1 ≤ Metric.cosine.distance a b))
    ∧ ((cosineSimilarity a b).isNaN = true → Metric.cosine.distance a b = 0) := by
  have hunsigned := Metric.cosine.unsigned_distance ha hb
  rw [List.all_eq_true] at ha hb
  refine ⟨isNaN_cosineSimilarity_iff ha hb, isNaN_cosineSimilarity_of_exactNorm_le ha hb, ?_,
    distance_of_isNaN⟩
  intro hnumber
  obtain ⟨hfinite, hlower, hupper⟩ := value_cosineSimilarity_bounds hnumber
  obtain ⟨_, hfinite', hle⟩ := one_sub_bounds hfinite hlower hupper
  have hdistance := distance_of_isNaN_eq_false hnumber
  have hnonneg := hunsigned.nonneg
  refine ⟨⟨?_, ?_⟩, hdistance, ⟨hnonneg, ?_⟩, fun hopposed => ?_⟩
  · rwa [Single.le_iff_value (by decide) hfinite, value_neg_one]
  · rwa [Single.le_iff_value hfinite (by decide), value_one]
  · rwa [hdistance, Single.le_iff_value hfinite' (by decide), value_two]
  · have hnonpos := cosineSimilarity_le_zero ha hb hopposed hnumber
    rw [hdistance, Single.le_iff_value (by decide) hfinite', value_one]
    exact one_le_value_one_sub hfinite hlower hupper (Single.value_nonpos hnonpos hfinite)

/-- Twice the one vector points where the other one does not. Its norm overflows, but the sum of
products does not. -/
theorem cosineSimilarity_range_doubled :
    [Float32.ofBits 0x5f000000, .ofBits 0x00000001].all Float32.isFinite = true
    ∧ [Float32.ofBits 0xdf800000, .ofBits 0x80000002].all Float32.isFinite = true
    ∧ (norm [Float32.ofBits 0xdf800000, .ofBits 0x80000002]).isFinite = false
    ∧ (cosineSimilarity [.ofBits 0x5f000000, .ofBits 0x00000001]
        [.ofBits 0xdf800000, .ofBits 0x80000002]).isNaN = false
    ∧ 1 ≤ Metric.cosine.distance [.ofBits 0x5f000000, .ofBits 0x00000001]
        [.ofBits 0xdf800000, .ofBits 0x80000002] := by
  have ha : [Float32.ofBits 0x5f000000, .ofBits 0x00000001].all Float32.isFinite = true := by
    decide
  have hb : [Float32.ofBits 0xdf800000, .ofBits 0x80000002].all Float32.isFinite = true := by
    decide
  have hopposed : Opposed [.ofBits 0x5f000000, .ofBits 0x00000001]
      [.ofBits 0xdf800000, .ofBits 0x80000002] := by
    refine ⟨2, two_pos, .cons ?_ (.cons ?_ .nil)⟩
    · show ((-(0x800000 : ℕ) : ℤ) : ℝ) * (2 : ℝ) ^ (41 : ℤ)
        = -(2 * (((0x800000 : ℕ) : ℤ) * (2 : ℝ) ^ (40 : ℤ)))
      norm_num
    · show ((-(2 : ℕ) : ℤ) : ℝ) * (2 : ℝ) ^ (-149 : ℤ)
        = -(2 * (((1 : ℕ) : ℤ) * (2 : ℝ) ^ (-149 : ℤ)))
      norm_num
  have hnumber : (cosineSimilarity [.ofBits 0x5f000000, .ofBits 0x00000001]
      [.ofBits 0xdf800000, .ofBits 0x80000002]).isNaN = false := by
    decide +kernel
  obtain ⟨_, _, hrange, _⟩ := cosineSimilarity_range _ _ ha hb
  exact ⟨ha, hb, by decide +kernel, hnumber, (hrange hnumber).2.2.2 hopposed⟩

/-- Two vectors of one component that point in opposite directions: the square and the product
overflow, so the similarity is not a number and the distance is zero. -/
theorem cosineSimilarity_largest_isNaN :
    [Float32.ofBits 0x7f7fffff].all Float32.isFinite = true
    ∧ [Float32.ofBits 0xff7fffff].all Float32.isFinite = true
    ∧ Opposed [.ofBits 0x7f7fffff] [.ofBits 0xff7fffff]
    ∧ (cosineSimilarity [.ofBits 0x7f7fffff] [.ofBits 0xff7fffff]).isNaN = true
    ∧ Metric.cosine.distance [.ofBits 0x7f7fffff] [.ofBits 0xff7fffff] = 0 := by
  refine ⟨by decide, by decide, ⟨1, one_pos, .cons ?_ .nil⟩, by decide +kernel, by decide +kernel⟩
  show ((-(0xffffff : ℕ) : ℤ) : ℝ) * (2 : ℝ) ^ (104 : ℤ)
    = -(1 * (((0xffffff : ℕ) : ℤ) * (2 : ℝ) ^ (104 : ℤ)))
  norm_num

end Distance

end NeighborSearch
