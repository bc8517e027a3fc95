import NeighborSearch.Decimal.Magnitude

/-!
# The shortest decimal of a float

Among the decimals that round to a given float, the one with the fewest digits is chosen, and of
those the nearest one. The search goes through the decimal grids `10 ^ k` from coarse to fine: if a
point of a grid rounds to the float, so does one of the two grid points next to its exact value,
and on the grid of its last binary digit the exact value itself is a point.
-/

namespace NeighborSearch.Decimal

/-- The decimal `digits * 10 ^ exponent`. -/
structure Digits where
  digits : Nat
  exponent : Int
deriving DecidableEq, Repr

namespace Magnitude

/-- Four times the exact value, in units of `2 ^ (exponent - 2) * 10 ^ (-k)` cleared of negative
powers. Everything on the grid `10 ^ k` is compared in these units. -/
def scaled (x : Magnitude) (k : Int) (quarters : Nat) : Nat :=
  quarters * Nat.pow 2 (x.exponent - 2).toNat * Nat.pow 10 (-k).toNat

/-- One step of the grid `10 ^ k`, in the units of `scaled`. -/
def gridStep (x : Magnitude) (k : Int) : Nat :=
  Nat.pow 10 k.toNat * Nat.pow 2 (2 - x.exponent).toNat

/-- Four times the lower end of the interval that rounds to the float, in quarter steps. -/
def lowerQuarters (x : Magnitude) : Nat :=
  4 * x.mantissa - if x.narrowBelow then 1 else 2

/-- Four times the upper end of the interval that rounds to the float, in quarter steps. -/
def upperQuarters (x : Magnitude) : Nat :=
  4 * x.mantissa + 2

/-- Whether the decimal `d * 10 ^ k` rounds to the float. The ends of the interval do so when the
mantissa is even. -/
def admits (x : Magnitude) (k : Int) (d : Nat) : Bool :=
  let point := d * x.gridStep k
  let low := x.scaled k x.lowerQuarters
  let high := x.scaled k x.upperQuarters
  if x.mantissa % 2 = 0 then decide (low ≤ point ∧ point ≤ high)
  else decide (low < point ∧ point < high)

/-- The grid point below the exact value. -/
def gridFloor (x : Magnitude) (k : Int) : Nat :=
  x.scaled k (4 * x.mantissa) / x.gridStep k

/-- Of two neighbouring grid points the one nearer to the exact value; of two equally near ones the
even one. -/
def nearer (x : Magnitude) (k : Int) : Nat :=
  let below := x.gridFloor k
  let value := x.scaled k (4 * x.mantissa)
  match compare (2 * value) ((2 * below + 1) * x.gridStep k) with
  | .lt => below
  | .gt => below + 1
  | .eq => if below % 2 = 0 then below else below + 1

/-- The point of the grid `10 ^ k` that stands for the float, if one rounds to it. -/
def gridPoint? (x : Magnitude) (k : Int) : Option Nat :=
  let below := x.gridFloor k
  match x.admits k below, x.admits k (below + 1) with
  | true, true => some (x.nearer k)
  | true, false => some below
  | false, true => some (below + 1)
  | false, false => none

/-- The finest grid that is ever needed: the exact value lies on it. -/
def finestGrid (x : Magnitude) : Int :=
  min x.exponent 0

/-- Searches `steps` grids down to the finest one. -/
def searchGrids (x : Magnitude) : Nat → Digits
  | 0 => ⟨x.gridFloor x.finestGrid, x.finestGrid⟩
  | steps + 1 =>
    let k := x.finestGrid + (steps + 1 : Nat)
    match x.gridPoint? k with
    | some d => ⟨d, k⟩
    | none => searchGrids x steps

/-- A grid whose step is larger than the value. -/
def coarsestGrid (x : Magnitude) : Int :=
  let top : Int := x.mantissa.log2 + 1 + x.exponent
  if 0 ≤ top then top / 3 + 1 else top / 4 + 1

/-- The shortest decimal that rounds to the float. -/
def shortest (x : Magnitude) : Digits :=
  x.searchGrids (x.coarsestGrid - x.finestGrid).toNat

end Magnitude

/-- How the decimals of a format are laid out: those whose leading digit stands for a power of ten
from `least` to `greatest` are written out in positions, the others with an exponent. -/
structure Layout where
  least : Int
  greatest : Int
deriving DecidableEq, Repr

/-- The layout of single-precision numbers. -/
def singleLayout : Layout := ⟨-6, 12⟩

/-- The layout of double-precision numbers. -/
def doubleLayout : Layout := ⟨-5, 15⟩

/-- `n` zeros. -/
def zeros (n : Nat) : List Char :=
  List.replicate n '0'

namespace Digits

/-- The decimal digits of the mantissa. -/
def text (d : Digits) : List Char :=
  Nat.toDigits 10 d.digits

/-- The power of ten that the leading digit stands for. -/
def leading (d : Digits) : Int :=
  d.exponent + (d.text.length - 1 : Nat)

/-- The decimal written out, with at least one digit on each side of the point. -/
def positional (d : Digits) : List Char :=
  if 0 ≤ d.exponent then d.text ++ zeros d.exponent.toNat ++ ['.', '0']
  else if 0 ≤ d.leading then
    let whole := (d.leading + 1).toNat
    d.text.take whole ++ '.' :: d.text.drop whole
  else ['0', '.'] ++ zeros (-d.leading - 1).toNat ++ d.text

/-- The decimal with one digit before the point and a signed power of ten after it. -/
def scientific (d : Digits) : List Char :=
  let fraction := match d.text.drop 1 with
    | [] => []
    | rest => '.' :: rest
  let sign := if d.leading < 0 then '-' else '+'
  d.text.take 1 ++ fraction ++ 'e' :: sign :: Nat.toDigits 10 d.leading.natAbs

/-- The decimal in a layout. -/
def render (layout : Layout) (d : Digits) : List Char :=
  if layout.least ≤ d.leading ∧ d.leading ≤ layout.greatest then d.positional else d.scientific

end Digits

/-- The text of a magnitude in a layout. -/
def Magnitude.render (layout : Layout) (x : Magnitude) : List Char :=
  if x.mantissa = 0 then ['0', '.', '0'] else x.shortest.render layout

/-- The shortest text of a finite single. -/
def shortestSingle (x : Float32) : List Char :=
  let size := (Magnitude.ofSingleBits x.toBits).render singleLayout
  if isNegativeSingle x then '-' :: size else size

/-- The shortest text of a finite double. -/
def shortestDouble (x : Float) : List Char :=
  let size := (Magnitude.ofDoubleBits x.toBits).render doubleLayout
  if isNegativeDouble x then '-' :: size else size

end NeighborSearch.Decimal
