import NeighborSearch.Proofs.Single.Sign

/-!
# Canonical forms

A pattern stands for a finite number in one form alone. Packing a number in this form and unpacking
it again gives the number back, unless its exponent is too large for a pattern: then it gives an
infinity. So the result of an operation on values is known from the operation on unpacked ones.
-/

namespace NeighborSearch.Single

open Float.Model Float.Model.UnpackedFloat

/-- The form of a finite number that a pattern has: a mantissa of at most 24 bits, which uses all of
them unless the exponent is the smallest one. The exponent may be too large for a pattern. -/
def Canonical : UnpackedFloat → Prop
  | .finite _ m e _ => m < 0x1000000 ∧ -149 ≤ e ∧ (0x800000 ≤ m ∨ e = -149)
  | _ => True

/-- What packing makes of a canonical form: infinity where the exponent is too large. -/
def clip : UnpackedFloat → UnpackedFloat
  | .finite s m e hm => if e ≤ 104 then .finite s m e hm else .infinity s
  | u => u

variable {u : UnpackedFloat} {s : Sign} {m : Nat} {e : Int}

theorem log2_of_normal (h : 0x800000 ≤ m) (h' : m < 0x1000000) : m.log2 = 23 :=
  (Nat.log2_eq_iff (by omega)).2 ⟨h, h'⟩

/-- A pattern that is put together from a sign and a magnitude. -/
theorem unpack_packComponents (s : Sign) (exponent : BitVec 8) (mantissa : BitVec 23) :
    unpack .binary32 (packComponents .binary32 s exponent mantissa)
      = decoded s (exponent.toNat * 0x800000 + mantissa.toNat) := by
  have hmagnitude : exponent.toNat * 0x800000 + mantissa.toNat < 0x80000000 := by
    have hexponent := exponent.isLt
    have hmantissa := mantissa.isLt
    omega
  have hbits := toNat_packComponents s exponent mantissa
  have hsign : unpackSign (packComponents .binary32 s exponent mantissa) = s.toBitVec := by
    rw [← BitVec.toNat_inj, toNat_unpackSign, hbits]
    omega
  rw [unpack_eq_decoded, hsign, Sign.ofBitVec_toBitVec, hbits]
  congr 1
  omega

theorem unpack_pack_finite (hm : 0 < m) (hcanonical : Canonical (.finite s m e hm))
    (he : e ≤ 104) :
    unpack .binary32 (UnpackedFloat.pack .binary32 (.finite s m e hm)) = .finite s m e hm := by
  obtain ⟨hlt, hge, hnormal⟩ := hcanonical
  unfold UnpackedFloat.pack
  extract_lets bits exponent
  have hexponent : (exponent : Int) = e + 150 := by
    show (((e + 127 + 23).toNat : Nat) : Int) = e + 150
    omega
  have hfits : ¬2 ^ 8 ≤ exponent + 1 := by omega
  have hmantissa : (BitVec.ofNat 23 m).toNat = m % 0x800000 := BitVec.toNat_ofNat _ _
  rw [if_neg hfits]
  split_ifs with hbits
  · -- all 24 bits of the mantissa are used, and the first one is not stored
    have hm' : 0x800000 ≤ m := by
      have hlog : m.log2 = 23 := by
        have h : m.log2 + 1 = 24 := hbits
        omega
      exact (Nat.le_log2 (Nat.ne_of_gt hm)).1 (Nat.le_of_eq hlog.symm)
    have hbiased : (BitVec.ofNat 8 exponent).toNat = exponent := by
      rw [BitVec.toNat_ofNat]
      exact Nat.mod_eq_of_lt (by omega)
    refine (unpack_packComponents s _ _).trans ?_
    rw [hbiased, hmantissa, decoded, dif_neg (by omega), if_neg (by omega), if_pos (by omega)]
    congr 1 <;> omega
  · have hm' : m < 0x800000 := by
      by_contra hle
      have hlog := log2_of_normal (Nat.le_of_not_lt hle) hlt
      exact hbits (congrArg (· + 1) hlog)
    have hmagnitude : (0#8).toNat * 0x800000 + (BitVec.ofNat 23 m).toNat = m := by
      rw [hmantissa, BitVec.toNat_zero]
      omega
    refine (unpack_packComponents s _ _).trans ?_
    rw [hmagnitude, decoded, dif_neg (Nat.ne_of_gt hm), if_pos hm']
    congr 1
    omega

/-- Packing a canonical form loses nothing but an exponent that is too large. -/
theorem unpack_pack (h : Canonical u) :
    unpack .binary32 (UnpackedFloat.pack .binary32 u) = clip u := by
  cases u with
  | notANumber => rfl
  | infinity s => cases s <;> rfl
  | zero s => cases s <;> rfl
  | finite s m e hm =>
    rw [clip]
    split_ifs with he
    · exact unpack_pack_finite hm h he
    · -- the exponent has no room in a pattern
      have hlarge : 2 ^ 8 ≤ (e + 127 + 23).toNat + 1 := by omega
      have hinfinity : UnpackedFloat.pack .binary32 (.finite s m e hm)
          = packedInfinity .binary32 s := if_pos hlarge
      rw [hinfinity]
      cases s <;> rfl

theorem canonical_decoded (s : Sign) (magnitude : Nat) : Canonical (decoded s magnitude) := by
  unfold decoded
  split_ifs with hzero hsmall hfinite
  · trivial
  · exact ⟨by omega, by omega, by omega⟩
  · exact ⟨by omega, by omega, by omega⟩
  · trivial
  · trivial

theorem clip_decoded (s : Sign) (magnitude : Nat) :
    clip (decoded s magnitude) = decoded s magnitude := by
  unfold decoded
  split_ifs <;> first | rfl | exact if_pos (by omega)

/-- A value is unpacked to a canonical form. -/
theorem canonical_unpack (x : Float32) : Canonical x.toModel.unpack := by
  show Canonical (unpack .binary32 x.toBits.toBitVec)
  rw [unpack_eq_decoded]
  exact canonical_decoded _ _

theorem clip_unpack (x : Float32) : clip x.toModel.unpack = x.toModel.unpack := by
  show clip (unpack .binary32 x.toBits.toBitVec) = unpack .binary32 x.toBits.toBitVec
  rw [unpack_eq_decoded]
  exact clip_decoded _ _

/-- The result of an operation, unpacked again. -/
theorem unpack_ofModel_pack (h : Canonical u) :
    (Float32.ofModel (.pack u)).toModel.unpack = clip u :=
  unpack_pack h

theorem unpack_result {v : UnpackedFloat} (h : v = u) (hu : Canonical u) :
    (Float32.ofModel (.pack v)).toModel.unpack = clip u := by
  subst h
  exact unpack_ofModel_pack hu

end NeighborSearch.Single
