/-!
# The total order of single-precision values

Numeric comparison leaves NaN incomparable and cannot tell the two zeros apart, so it cannot
rank. The total order compares bit patterns instead: read as sign and magnitude, with the
negative half turned round, they are the integers `rank`. On numbers the order is the numeric
one, refined by `-0 < +0`; below and above all numbers stand the negative and the positive NaNs.
-/

namespace NeighborSearch.Single

/-- Place of a bit pattern in the total order: the magnitude of a pattern without the sign bit,
and `-1` less the magnitude of a pattern with it. -/
def rank (bits : UInt32) : Int :=
  if bits.toNat < 0x80000000 then bits.toNat else 0x7fffffff - bits.toNat

/-- The total order of bit patterns. -/
def totalCompare (x y : UInt32) : Ordering :=
  compare (rank x) (rank y)

/-- Distinct bit patterns have distinct ranks. -/
theorem rank_inj {x y : UInt32} : rank x = rank y ↔ x = y := by
  constructor
  · intro h
    have hx := x.toNat_lt
    have hy := y.toNat_lt
    unfold rank at h
    apply UInt32.toNat_inj.1
    split at h <;> split at h <;> omega
  · rintro rfl
    rfl

instance : Std.TransCmp totalCompare :=
  inferInstanceAs (Std.TransCmp (compareOn rank))

instance : Std.LawfulEqCmp totalCompare where
  eq_of_compare h := rank_inj.1 (Std.LawfulEqCmp.compare_eq_iff_eq.1 h)

theorem totalCompare_eq_iff {x y : UInt32} : totalCompare x y = .eq ↔ x = y :=
  Std.LawfulEqCmp.compare_eq_iff_eq

end NeighborSearch.Single
