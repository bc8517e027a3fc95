import NeighborSearch.Distance
import NeighborSearch.Proofs.Single.Operations

/-!
# Distances are symmetric

Two values taken from each other the other way round differ in nothing but the sign, and a square
does not see the sign. So neither rounding nor overflow nor a signed zero tells the two vectors of a
distance apart, and this whatever the values are: infinities and what is not a number included. The
order of the terms in a sum is the order of the components, which is the same for both.
-/

namespace NeighborSearch

namespace Single

open Float.Model Float.Model.UnpackedFloat

variable {u v : UnpackedFloat} {x y : Float32}

/-! ## Products -/

theorem mul_comm_unpacked (u v : UnpackedFloat) :
    UnpackedFloat.mul .binary32 u v = UnpackedFloat.mul .binary32 v u := by
  have hsign (s t : Sign) : s * t = t * s := by cases s <;> cases t <;> rfl
  cases u with
  | notANumber => cases v <;> rfl
  | infinity s =>
    cases v with
    | notANumber => rfl
    | zero t => rfl
    | infinity t => exact congrArg _ (hsign s t)
    | finite t m e hm => exact congrArg _ (hsign s t)
  | zero s =>
    cases v with
    | notANumber => rfl
    | infinity t => rfl
    | zero t => exact congrArg _ (hsign s t)
    | finite t m e hm => exact congrArg _ (hsign s t)
  | finite s m e hm =>
    cases v with
    | notANumber => rfl
    | infinity t => exact congrArg _ (hsign s t)
    | zero t => exact congrArg _ (hsign s t)
    | finite t m' e' hm' =>
      show roundWithAccuracy .binary32 (s * t) (m * m') (e + e') .exact
        = roundWithAccuracy .binary32 (t * s) (m' * m) (e' + e) .exact
      rw [hsign, Nat.mul_comm, Int.add_comm]

theorem mul_comm_value (x y : Float32) : x * y = y * x :=
  congrArg (fun u => Float32.ofModel (.pack u)) (mul_comm_unpacked _ _)

/-- A square is that of the magnitude. -/
theorem mul_self_abs (u : UnpackedFloat) :
    UnpackedFloat.mul .binary32 u u = UnpackedFloat.mul .binary32 u.abs u.abs := by
  have hsign (s : Sign) : s * s = Sign.positive * Sign.positive := by cases s <;> rfl
  cases u with
  | notANumber => rfl
  | infinity s => exact congrArg _ (hsign s)
  | zero s => exact congrArg _ (hsign s)
  | finite s m e hm =>
    show roundWithAccuracy .binary32 (s * s) (m * m) (e + e) .exact
      = roundWithAccuracy .binary32 (.positive * .positive) (m * m) (e + e) .exact
    rw [hsign]

/-! ## Magnitudes of differences -/

/-- Rounding does not look at the sign. -/
theorem abs_round (s t : Sign) (m : ℕ) (e : ℤ) :
    (UnpackedFloat.round .binary32 s m e).abs = (UnpackedFloat.round .binary32 t m e).abs := by
  unfold UnpackedFloat.round roundWithAccuracy
  dsimp only
  split_ifs <;> rfl

theorem abs_normalize_neg (m e : ℤ) (s : Sign) :
    (normalize .binary32 (-m) e s).abs = (normalize .binary32 m e s).abs := by
  unfold UnpackedFloat.normalize
  rcases lt_trichotomy m 0 with hm | rfl | hm
  · rw [Int.compare_eq_lt.2 hm, Int.compare_eq_gt.2 (Int.neg_pos.2 hm)]
    exact abs_round _ _ _ _
  · rfl
  · rw [Int.compare_eq_gt.2 hm, Int.compare_eq_lt.2 (Int.neg_neg_iff_pos.2 hm)]
    dsimp only
    rw [Int.neg_neg]
    exact abs_round _ _ _ _

/-- Differences the other way round have the same magnitude. -/
theorem abs_sub_comm_unpacked (u v : UnpackedFloat) :
    (UnpackedFloat.sub .binary32 u v).abs = (UnpackedFloat.sub .binary32 v u).abs := by
  cases u with
  | notANumber => cases v <;> rfl
  | infinity s =>
    cases v with
    | infinity t => cases s <;> cases t <;> rfl
    | _ => rfl
  | zero s =>
    cases v with
    | zero t => cases s <;> cases t <;> rfl
    | _ => rfl
  | finite s m e hm =>
    cases v with
    | finite t m' e' hm' =>
      show (normalize .binary32 (s.apply (m <<< (e - min e e').toNat : ℕ)
          - t.apply (m' <<< (e' - min e e').toNat : ℕ)) (min e e') .positive).abs
        = (normalize .binary32 (t.apply (m' <<< (e' - min e' e).toNat : ℕ)
          - s.apply (m <<< (e - min e' e).toNat : ℕ)) (min e' e) .positive).abs
      rw [min_comm e' e, ← abs_normalize_neg, neg_sub]
    | _ => rfl

theorem canonical_sub (hu : Canonical u) (hv : Canonical v) :
    Canonical (UnpackedFloat.sub .binary32 u v) := by
  cases u with
  | notANumber => cases v <;> trivial
  | infinity s =>
    cases v with
    | infinity t => cases s <;> cases t <;> trivial
    | _ => trivial
  | zero s =>
    cases v with
    | zero t => exact (rounds_sub (u := .zero s) (v := .zero t) trivial trivial rfl rfl).canonical
    | finite t m e hm => exact hv
    | _ => trivial
  | finite s m e hm =>
    cases v with
    | finite t m' e' hm' => exact (rounds_sub hu hv rfl rfl).canonical
    | zero t => exact hu
    | _ => trivial

theorem abs_clip (u : UnpackedFloat) : (clip u).abs = clip u.abs := by
  cases u with
  | finite s m e hm =>
    show (if e ≤ 104 then UnpackedFloat.finite s m e hm else .infinity s).abs
      = if e ≤ 104 then .finite .positive m e hm else .infinity .positive
    split_ifs <;> rfl
  | _ => rfl

theorem abs_unpack_sub_comm (x y : Float32) :
    (x - y).toModel.unpack.abs = (y - x).toModel.unpack.abs := by
  have hsub (x y : Float32) : (x - y).toModel.unpack
      = clip (UnpackedFloat.sub .binary32 x.toModel.unpack y.toModel.unpack) :=
    unpack_ofModel_pack (canonical_sub (canonical_unpack x) (canonical_unpack y))
  rw [hsub, hsub, abs_clip, abs_clip, abs_sub_comm_unpacked]

end Single

open Single

/-! ## Distance functions -/

theorem squaredDifference_comm (x y : Float32) : squaredDifference x y = squaredDifference y x := by
  have hmul (d : Float32) : d * d
      = .ofModel (.pack (Float.Model.UnpackedFloat.mul .binary32 d.toModel.unpack.abs
          d.toModel.unpack.abs)) :=
    congrArg (fun u => Float32.ofModel (.pack u)) (mul_self_abs _)
  show (x - y) * (x - y) = (y - x) * (y - x)
  rw [hmul, hmul, abs_unpack_sub_comm]

theorem squaredL2_comm (a b : List Float32) : squaredL2 a b = squaredL2 b a := by
  rw [squaredL2, squaredL2, List.zipWith_comm_of_comm squaredDifference_comm]

theorem dotProduct_comm (a b : List Float32) : dotProduct a b = dotProduct b a := by
  rw [dotProduct, dotProduct, List.zipWith_comm_of_comm mul_comm_value]

theorem cosineSimilarity_comm (a b : List Float32) :
    cosineSimilarity a b = cosineSimilarity b a := by
  unfold cosineSimilarity
  dsimp only
  rw [dotProduct_comm a b, mul_comm_value (norm a) (norm b)]
  exact if_congr or_comm rfl rfl

theorem Metric.distance_comm (metric : Metric) (a b : List Float32) :
    metric.distance a b = metric.distance b a := by
  cases metric with
  | squaredL2 => exact squaredL2_comm a b
  | l2 => exact congrArg Float32.sqrt (squaredL2_comm a b)
  | cosine => exact congrArg (fun x => positivePart (1 - x)) (cosineSimilarity_comm a b)

end NeighborSearch
