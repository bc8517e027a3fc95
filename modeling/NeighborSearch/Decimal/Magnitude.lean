/-!
# Exact values of floating-point numbers

A finite float without its sign is a natural number times a power of two. Decimal text is computed
from that exact value; nothing is rounded before the digits are chosen.
-/

namespace NeighborSearch.Decimal

/-- The exact value `mantissa * 2 ^ exponent` of a finite float without its sign. -/
structure Magnitude where
  mantissa : Nat
  exponent : Int
  /-- Whether the next smaller float is only half as far away as the next larger one, as it is for
  a power of two above the subnormal range. -/
  narrowBelow : Bool
deriving DecidableEq, Repr

namespace Magnitude

/-- The magnitude of a float with `width` fraction bits and the smallest exponent `least`, from its
fraction field and its biased exponent field. -/
def ofFields (width : Nat) (least : Int) (fraction biased : Nat) : Magnitude :=
  if biased = 0 then ⟨fraction, least, false⟩
  else ⟨Nat.pow 2 width + fraction, least + (biased - 1 : Nat), fraction == 0 && biased != 1⟩

/-- The magnitude of a single-precision bit pattern. -/
def ofSingleBits (bits : UInt32) : Magnitude :=
  ofFields 23 (-149) (bits.toNat % 0x800000) (bits.toNat / 0x800000 % 0x100)

/-- The magnitude of a double-precision bit pattern. -/
def ofDoubleBits (bits : UInt64) : Magnitude :=
  ofFields 52 (-1074) (bits.toNat % 0x10000000000000)
    (bits.toNat / 0x10000000000000 % 0x800)

end Magnitude

/-- Whether the sign bit of a single-precision value is set. -/
def isNegativeSingle (x : Float32) : Bool :=
  decide (0x80000000 ≤ x.toBits.toNat)

/-- Whether the sign bit of a double-precision value is set. -/
def isNegativeDouble (x : Float) : Bool :=
  decide (0x8000000000000000 ≤ x.toBits.toNat)

end NeighborSearch.Decimal
