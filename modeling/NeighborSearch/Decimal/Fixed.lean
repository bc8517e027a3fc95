import NeighborSearch.Decimal.Magnitude

/-!
# Decimals with a fixed number of places

The exact value of a float is rounded to a whole number of units of the last place; a half goes to
the even neighbour. The sign is that of the float, also when all digits are zero.
-/

namespace NeighborSearch.Decimal

/-- `numerator / denominator` rounded to the nearest natural number, a half to the even one. -/
def roundHalfEven (numerator denominator : Nat) : Nat :=
  let below := numerator / denominator
  match compare (2 * (numerator % denominator)) denominator with
  | .lt => below
  | .gt => below + 1
  | .eq => below + below % 2

/-- A magnitude in units of `10 ^ (-places)`. -/
def Magnitude.toPlaces (places : Nat) (x : Magnitude) : Nat :=
  roundHalfEven (x.mantissa * Nat.pow 2 x.exponent.toNat * Nat.pow 10 places)
    (Nat.pow 2 (-x.exponent).toNat)

/-- Digits padded with leading zeros to at least `width`. -/
def padDigits (width n : Nat) : List Char :=
  let digits := Nat.toDigits 10 n
  List.replicate (width - digits.length) '0' ++ digits

/-- A magnitude with a fixed number of places. -/
def Magnitude.renderFixed (places : Nat) (x : Magnitude) : List Char :=
  let units := x.toPlaces places
  Nat.toDigits 10 (units / Nat.pow 10 places)
    ++ '.' :: padDigits places (units % Nat.pow 10 places)

/-- A single with a fixed number of places; what is no number of finite size is named. -/
def fixedSingle (places : Nat) (x : Float32) : String :=
  if x.isNaN then "NaN"
  else
    let size :=
      if x.isInf then ['i', 'n', 'f'] else (Magnitude.ofSingleBits x.toBits).renderFixed places
    String.ofList (if isNegativeSingle x then '-' :: size else size)

end NeighborSearch.Decimal
