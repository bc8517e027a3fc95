import NeighborSearch.Decimal.Magnitude

/-!
# From double to single precision

Every finite double is a finite decimal, and reading that decimal in single precision rounds it
once. Values beyond the largest single round to infinity.
-/

namespace NeighborSearch.Decimal

/-- The single nearest to `mantissa * 2 ^ exponent`, with ties to the even mantissa. -/
def Magnitude.toSingle (x : Magnitude) : Float32 :=
  if 0 ≤ x.exponent then Float32.ofScientific (x.mantissa * Nat.pow 2 x.exponent.toNat) false 0
  else Float32.ofScientific (x.mantissa * Nat.pow 5 (-x.exponent).toNat) true (-x.exponent).toNat

/-- The canonical single that is not a number. -/
def singleNaN : Float32 :=
  Float32.ofBits 0x7fc00000

/-- The single nearest to a double, with ties to the even mantissa. -/
def narrow (x : Float) : Float32 :=
  if x.isNaN then singleNaN
  else
    let size :=
      if x.isInf then Float32.ofBits 0x7f800000 else (Magnitude.ofDoubleBits x.toBits).toSingle
    if isNegativeDouble x then -size else size

end NeighborSearch.Decimal
