import NeighborSearch.Proofs.Single.Sign
import NeighborSearch.Single.Sum

/-!
# Unsigned values

The values that are numbers and have no sign bit: zero, the positive numbers and infinity. They are
closed under sums and roots, and contain the squares of all numbers. Their patterns are ordered as
they are, so that on them the total order is the numeric one. This file gives

1. the operations with unsigned results;
2. sums in both orders of summation;
3. comparisons;
4. differences, which are unsigned where no more is taken away than there is.
-/

namespace NeighborSearch.Single

open Float.Model Float.Model.UnpackedFloat

/-- A number without the sign bit: zero, a positive number or infinity. -/
def Unsigned (x : Float32) : Prop :=
  x.toBits ≤ 0x7f800000

section Unsigned

variable {x y : Float32}

instance : Decidable (Unsigned x) :=
  inferInstanceAs (Decidable (x.toBits ≤ 0x7f800000))

/-- The pattern of a value without a sign is its magnitude. -/
theorem unpack_of_unsigned (hx : Unsigned x) :
    x.toModel.unpack = decoded .positive x.toBits.toNat := by
  have hbits : x.toBits.toNat ≤ 0x7f800000 := hx
  have hlt : x.toBits.toBitVec.toNat < 0x80000000 := Nat.lt_of_le_of_lt hbits (by decide)
  show unpack .binary32 x.toBits.toBitVec = _
  rw [unpack_eq_decoded, ofBitVec_unpackSign_of_lt hlt, Nat.mod_eq_of_lt hlt]
  rfl

theorem unsigned_iff : Unsigned x ↔ sign? x.toModel.unpack = some .positive := by
  constructor
  · intro hx
    have hbits : x.toBits.toNat ≤ 0x7f800000 := hx
    rw [unpack_of_unsigned hx, sign?_decoded hbits]
  · intro h
    obtain ⟨magnitude, hmagnitude, hbits⟩ := exists_toNat_pack h
    have hpattern : UnpackedFloat.pack .binary32 x.toModel.unpack = x.toBits.toBitVec :=
      pack_unpack_of_valid x.toModel.valid
    have hzero : Sign.positive.toBitVec.toNat = 0 := rfl
    rw [hpattern, hzero, Nat.zero_mul, Nat.zero_add] at hbits
    show x.toBits.toBitVec.toNat ≤ 0x7f800000
    rw [hbits]
    exact hmagnitude

theorem Unsigned.isNaN (hx : Unsigned x) : x.isNaN = false := by
  rw [unsigned_iff] at hx
  show x.toModel.unpack.isNaN = false
  cases hu : x.toModel.unpack <;> rw [hu] at hx <;> first | rfl | cases hx

/-- A result without a sign is unsigned. -/
theorem unsigned_ofModel_pack {u : UnpackedFloat} (h : sign? u = some .positive) :
    Unsigned (.ofModel (.pack u)) :=
  unsigned_iff.2 (sign?_unpack_pack h)

theorem unsigned_zero : Unsigned 0 := by
  decide

theorem Unsigned.add (hx : Unsigned x) (hy : Unsigned y) : Unsigned (x + y) :=
  unsigned_ofModel_pack (sign?_add (unsigned_iff.1 hx) (unsigned_iff.1 hy))

theorem Unsigned.negativeZero_add (hx : Unsigned x) : Unsigned (negativeZero + x) :=
  unsigned_ofModel_pack (sign?_zero_add (s := .negative) (unsigned_iff.1 hx))

theorem Unsigned.sqrt (hx : Unsigned x) : Unsigned x.sqrt :=
  unsigned_ofModel_pack (sign?_sqrt (unsigned_iff.1 hx))

/-- The square of the difference of finite values is unsigned. -/
theorem unsigned_square_sub (hx : x.isFinite = true) (hy : y.isFinite = true) :
    Unsigned ((x - y) * (x - y)) := by
  have hsub : (sign? (UnpackedFloat.sub .binary32 x.toModel.unpack y.toModel.unpack)).isSome
      = true := isSome_sign?_sub hx hy
  obtain ⟨s, hs⟩ := Option.isSome_iff_exists.1 hsub
  have hdifference : sign? (x - y).toModel.unpack = some s := sign?_unpack_pack hs
  exact unsigned_ofModel_pack (sign?_mul_self (Option.isSome_of_eq_some hdifference))

end Unsigned

/-! ## Sums -/

section Sums

variable {terms lanes : List Float32}

theorem Unsigned.foldl_add {start : Float32} (hstart : Unsigned start)
    (h : ∀ x ∈ terms, Unsigned x) : Unsigned (terms.foldl (· + ·) start) := by
  induction terms generalizing start with
  | nil => exact hstart
  | cons x rest ih =>
    rw [List.forall_mem_cons] at h
    exact ih (hstart.add h.1) h.2

/-- A sum of unsigned terms is unsigned, though it starts from a zero with a sign: the first term
takes its place. -/
theorem unsigned_sum (hne : terms ≠ []) (h : ∀ x ∈ terms, Unsigned x) : Unsigned (sum terms) := by
  cases terms with
  | nil => exact absurd rfl hne
  | cons x rest =>
    rw [List.forall_mem_cons] at h
    exact h.1.negativeZero_add.foldl_add h.2

theorem unsigned_addInTurn {x : Float32} (hlanes : ∀ lane ∈ lanes, Unsigned lane)
    (hx : Unsigned x) : ∀ lane ∈ addInTurn lanes x, Unsigned lane := by
  cases lanes with
  | nil => exact hlanes
  | cons lane rest =>
    rw [List.forall_mem_cons] at hlanes
    intro other hother
    rw [addInTurn, List.mem_append, List.mem_singleton] at hother
    rcases hother with hrest | rfl
    · exact hlanes.2 other hrest
    · exact hlanes.1.add hx

/-- The accumulators stay unsigned through all rounds. -/
theorem unsigned_laneSums (h : ∀ x ∈ terms, Unsigned x) :
    ∀ lane ∈ laneSums terms, Unsigned lane := by
  have hfold (lanes : List Float32) (hlanes : ∀ lane ∈ lanes, Unsigned lane) :
      ∀ lane ∈ terms.foldl addInTurn lanes, Unsigned lane := by
    induction terms generalizing lanes with
    | nil => exact hlanes
    | cons x rest ih =>
      rw [List.forall_mem_cons] at h
      exact ih h.2 _ (unsigned_addInTurn hlanes h.1)
  refine hfold _ fun lane hlane => ?_
  rw [List.eq_of_mem_replicate hlane]
  exact unsigned_zero

theorem unsigned_laneSum (h : ∀ x ∈ terms, Unsigned x) : Unsigned (laneSum terms) := by
  have hne (body : List Float32) : laneSums body ≠ [] := by
    rw [← List.length_pos_iff, length_laneSums]
    decide
  refine (unsigned_sum (hne _) (unsigned_laneSums ?_)).foldl_add ?_
  · exact fun x hx => h x (List.mem_of_mem_take hx)
  · exact fun x hx => h x (List.mem_of_mem_drop hx)

end Sums

/-! ## Comparison -/

section Comparison

variable {x y : Float32}

theorem le_iff_compare :
    x ≤ y ↔ (UnpackedFloat.compare x.toModel.unpack y.toModel.unpack).any (·.isLE) = true :=
  decide_eq_true_iff

theorem lt_iff_compare :
    x < y ↔ UnpackedFloat.compare x.toModel.unpack y.toModel.unpack = some .lt :=
  decide_eq_true_iff.trans beq_iff_eq

theorem beq_iff_compare :
    (x == y) = true ↔ UnpackedFloat.compare x.toModel.unpack y.toModel.unpack = some .eq := by
  show (UnpackedFloat.compare x.toModel.unpack y.toModel.unpack == some .eq) = true ↔ _
  exact beq_iff_eq

/-- What is above zero is a number without the sign bit. -/
theorem unsigned_of_pos (h : 0 < x) : Unsigned x := by
  have hzero : (0 : Float32).toModel.unpack = .zero .positive := by
    rw [unpack_of_unsigned unsigned_zero]
    rfl
  rw [lt_iff_compare, hzero] at h
  rw [unsigned_iff]
  cases hx : x.toModel.unpack with
  | notANumber => rw [hx] at h; cases h
  | zero s => rw [hx] at h; cases h
  | infinity s => rw [hx] at h; cases s <;> cases h; rfl
  | finite s m e hm => rw [hx] at h; cases s <;> cases h; rfl

/-- The total order of unsigned values is that of their patterns. -/
theorem totalCompare_of_unsigned (hx : Unsigned x) (hy : Unsigned y) :
    totalCompare x.toBits y.toBits = compare x.toBits.toNat y.toBits.toNat := by
  have hrank {z : Float32} (hz : Unsigned z) : rank z.toBits = z.toBits.toNat :=
    if_pos (Nat.lt_of_le_of_lt (show z.toBits.toNat ≤ 0x7f800000 from hz) (by decide))
  rw [totalCompare, hrank hx, hrank hy, Nat.compare_eq_ite_lt, Int.compare_eq_ite_lt]
  simp only [Int.ofNat_lt]

/-- Numeric comparison of unsigned values is the total order. -/
theorem compare_unpack_of_unsigned (hx : Unsigned x) (hy : Unsigned y) :
    UnpackedFloat.compare x.toModel.unpack y.toModel.unpack
      = some (totalCompare x.toBits y.toBits) := by
  rw [unpack_of_unsigned hx, unpack_of_unsigned hy, totalCompare_of_unsigned hx hy]
  exact compare_decoded hx hy

theorem le_iff_of_unsigned (hx : Unsigned x) (hy : Unsigned y) :
    x ≤ y ↔ (totalCompare x.toBits y.toBits).isLE = true := by
  rw [le_iff_compare, compare_unpack_of_unsigned hx hy, Option.any_some]

theorem lt_iff_of_unsigned (hx : Unsigned x) (hy : Unsigned y) :
    x < y ↔ totalCompare x.toBits y.toBits = .lt := by
  rw [lt_iff_compare, compare_unpack_of_unsigned hx hy, Option.some_inj]

theorem beq_iff_of_unsigned (hx : Unsigned x) (hy : Unsigned y) :
    (x == y) = true ↔ totalCompare x.toBits y.toBits = .eq := by
  rw [beq_iff_compare, compare_unpack_of_unsigned hx hy, Option.some_inj]

theorem Unsigned.nonneg (hx : Unsigned x) : 0 ≤ x := by
  rw [le_iff_of_unsigned unsigned_zero hx, totalCompare_of_unsigned unsigned_zero hx,
    Nat.isLE_compare]
  exact Nat.zero_le _

end Comparison

/-! ## Differences -/

section Differences

variable {x y : Float32}

/-- A difference from an unsigned value is unsigned if no more is taken away than there is. -/
theorem Unsigned.sub (hx : x.toBits < 0x7f800000) (hy : Unsigned y) (hyx : y ≤ x) :
    Unsigned (x - y) := by
  have hx' : Unsigned x := Nat.le_of_lt hx
  rw [le_iff_of_unsigned hy hx', totalCompare_of_unsigned hy hx', Nat.isLE_compare] at hyx
  have hsign := sign?_sub_decoded hyx hx
  rw [← unpack_of_unsigned hx', ← unpack_of_unsigned hy] at hsign
  exact unsigned_ofModel_pack hsign

theorem isNaN_sub (hy : sign? y.toModel.unpack = none) : (x - y).isNaN = true := by
  show (Float32.ofModel (.pack (UnpackedFloat.sub .binary32 x.toModel.unpack
    y.toModel.unpack))).isNaN = true
  rw [sign?_eq_none_iff.1 hy, sub_notANumber]
  rfl

/-- A number that is not above one leaves an unsigned value when it is taken from one. -/
theorem isNaN_or_unsigned_one_sub (hx : ¬1 < x) : (1 - x).isNaN = true ∨ Unsigned (1 - x) := by
  have hone : Unsigned 1 := by decide
  cases hsign : sign? x.toModel.unpack with
  | none => exact .inl (isNaN_sub hsign)
  | some s =>
    right
    cases s with
    | negative => exact unsigned_ofModel_pack (sign?_sub_of_negative (unsigned_iff.1 hone) hsign)
    | positive =>
      have hx' : Unsigned x := unsigned_iff.2 hsign
      refine Unsigned.sub (by decide) hx' ?_
      rw [lt_iff_of_unsigned hone hx', totalCompare_of_unsigned hone hx', Nat.compare_eq_lt] at hx
      rw [le_iff_of_unsigned hx' hone, totalCompare_of_unsigned hx' hone, Nat.isLE_compare]
      exact Nat.le_of_not_lt hx

end Differences

end NeighborSearch.Single
