import NeighborSearch.Decimal.Narrow
import NeighborSearch.Json.Basic

/-!
# Reading JSON numbers

A number is an integer where it is written as one and fits 64 bits. Every other number becomes a
double: its digits are gathered in a 64-bit significand as long as they fit, and the significand is
scaled by powers of ten in double precision, one multiplication or division at a time. Numbers
beyond the doubles are refused.
-/

namespace NeighborSearch.Json

/-- A number as it is written. -/
structure Numeral where
  negative : Bool
  whole : List Char
  /-- The digits after the point. -/
  fraction : List Char
  /-- Whether the power of ten is negative, and its digits. -/
  power : Option (Bool × List Char)
deriving DecidableEq

/-- The value of a decimal digit. -/
def digitValue (c : Char) : Nat :=
  c.toNat - '0'.toNat

/-- The digits gathered so far: `significand * 10 ^ exponent`. -/
structure Gathered where
  significand : Nat
  exponent : Int

/-- Whether one more digit fits into the significand. -/
def Gathered.fits (g : Gathered) (digit : Char) : Bool :=
  decide (g.significand * 10 + digitValue digit < UInt64.size)

/-- Takes one more digit into the significand. -/
def Gathered.push (g : Gathered) (digit : Char) : Gathered :=
  { g with significand := g.significand * 10 + digitValue digit }

/-- Gathers the digits before the point. From the first one that does not fit, digits only count as
powers of ten. -/
def gatherWhole (g : Gathered) : List Char → Gathered
  | [] => g
  | digit :: rest =>
    if g.fits digit then gatherWhole (g.push digit) rest
    else { g with exponent := g.exponent + (rest.length + 1 : Nat) }

/-- Gathers the digits after the point, up to the first one that does not fit. -/
def gatherFraction (g : Gathered) : List Char → Gathered
  | [] => g
  | digit :: rest =>
    if g.fits digit then
      gatherFraction { g.push digit with exponent := g.exponent - 1 } rest
    else g

/-- The largest power of ten that is used as a single factor. -/
def largestPower : Nat := 308

/-- A power of ten as a double. -/
def powerOfTen (n : Nat) : Float :=
  Float.ofScientific 1 false n

/-- Scales a double by a power of ten; `steps` bounds the divisions by the largest factor. Three of
them take every 64-bit significand to zero. -/
def scale (x : Float) (exponent : Int) : (steps : Nat) → Option Float
  | 0 => some x
  | steps + 1 =>
    if exponent.natAbs ≤ largestPower then
      if 0 ≤ exponent then
        let y := x * powerOfTen exponent.natAbs
        if y.isInf then none else some y
      else some (x / powerOfTen exponent.natAbs)
    else if x == 0 then some x
    else if 0 ≤ exponent then none
    else scale (x / powerOfTen largestPower) (exponent + largestPower) steps

/-- The double of a significand and a power of ten. -/
def Gathered.toDouble (g : Gathered) : Option Float :=
  scale (UInt64.ofNat g.significand).toFloat g.exponent 4

/-- The largest power of ten that is taken as written. -/
def greatestWrittenPower : Nat := 0x7fffffff

/-- The natural number of a list of digits. -/
def digitsValue (digits : List Char) : Nat :=
  digits.foldl (fun n c => n * 10 + digitValue c) 0

/-- The size of a numeral that is not kept as an integer. -/
def Numeral.size (n : Numeral) : Option Float :=
  let g := gatherFraction (gatherWhole ⟨0, 0⟩ n.whole) n.fraction
  match n.power with
  | none => g.toDouble
  | some (negative, digits) =>
    let power := digitsValue digits
    if greatestWrittenPower < power then
      if g.significand ≠ 0 ∧ !negative then none else some 0
    else
      let exponent := if negative then g.exponent - power else g.exponent + power
      Gathered.toDouble ⟨g.significand, exponent⟩

/-- The value of a numeral, unless it is beyond the doubles. -/
def Numeral.value? (n : Numeral) : Option Number :=
  let integer := digitsValue n.whole
  if n.fraction = [] ∧ n.power = none ∧ integer < UInt64.size then
    if !n.negative then some (.natural (.ofNat integer))
    else if 0 < integer ∧ integer ≤ 0x8000000000000000 then some (.negative (.ofInt (-integer)))
    else some (.double (-(UInt64.ofNat integer).toFloat))
  else n.size.map fun x => .double (if n.negative then -x else x)

/-- A number in single precision. -/
def Number.toSingle : Number → Float32
  | natural n => n.toFloat32
  | negative n => n.toFloat32
  | single x => x
  | double x => Decimal.narrow x

/-- A number as a natural number below a bound. -/
def Number.below? (bound : Nat) : Number → Option Nat
  | natural n => if n.toNat < bound then some n.toNat else none
  | _ => none

end NeighborSearch.Json
