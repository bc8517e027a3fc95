import NeighborSearch.Config.Value
import NeighborSearch.Text.Hex
import NeighborSearch.Toml.Dialect

/-!
# Scalars without delimiters in TOML

Booleans, numbers, dates and times are words of letters, digits and a few signs. `scalar?` says what
a whole word stands for. No setting is a date or a time; it counts as a table without entries.
-/

namespace NeighborSearch.Toml

/-- Whether a character may stand in a word. -/
def isWordChar (c : Char) : Bool :=
  c.isAlphanum || c == '_' || c == '+' || c == '-' || c == '.' || c == ':'

/-! ## Integers -/

/-- The digits of a number whose digits may be separated by single underscores. -/
def ungroup (isDigit : Char → Bool) : List Char → Option (List Char)
  | [] => none
  | [c] => if isDigit c then some [c] else none
  | c :: '_' :: rest => if isDigit c then (ungroup isDigit rest).map (c :: ·) else none
  | c :: rest => if isDigit c then (ungroup isDigit rest).map (c :: ·) else none

/-- A sign and what follows it. The flag says whether it is a minus. -/
def splitSign : List Char → Bool × List Char
  | '-' :: rest => (true, rest)
  | '+' :: rest => (false, rest)
  | s => (false, s)

/-- The digits of a decimal number that does not start with a needless zero. -/
def wholeDigits? (s : List Char) : Option (List Char) :=
  match ungroup Char.isDigit s with
  | some ('0' :: _ :: _) => none
  | digits => digits

/-- The value of digits in a base. -/
def digitsValue (base : Nat) (digits : List Char) : Nat :=
  digits.foldl (fun n c => n * base + (Text.hexValue? c).getD 0) 0

/-- Whether a character is a digit in a base of at most sixteen. -/
def isDigitOf (base : Nat) (c : Char) : Bool :=
  match Text.hexValue? c with
  | some n => decide (n < base)
  | none => false

/-- The base that a letter after a zero stands for. -/
def baseOf? (c : Char) : Option Nat :=
  match c with
  | 'x' => some 16
  | 'o' => some 8
  | 'b' => some 2
  | _ => none

/-- The value of a decimal integer with its sign. -/
def decimalInteger? (word : List Char) : Option Int :=
  let (negative, rest) := splitSign word
  (wholeDigits? rest).map fun digits =>
    let n : Int := digitsValue 10 digits
    if negative then -n else n

/-- The value of an integer. -/
def integer? (word : List Char) : Option Int :=
  match word with
  | '0' :: c :: rest =>
    match baseOf? c with
    | some base => (ungroup (isDigitOf base) rest).map fun digits => (digitsValue base digits : Nat)
    | none => decimalInteger? word
  | _ => decimalInteger? word

/-! ## Floating-point numbers -/

/-- Whether a character may stand among decimal digits. -/
def isGroupChar (c : Char) : Bool :=
  c.isDigit || c == '_'

/-- The power of ten at the end of a number. -/
def power? : List Char → Option Int
  | [] => some 0
  | c :: rest =>
    if c = 'e' ∨ c = 'E' then
      let (negative, rest) := splitSign rest
      (ungroup Char.isDigit rest).map fun digits =>
        let n : Int := digitsValue 10 digits
        if negative then -n else n
    else none

/-- The digits and the power of ten of an unsigned decimal number that is no integer. -/
def decimal? (s : List Char) : Option (List Char × Int) := do
  let whole ← wholeDigits? (s.takeWhile isGroupChar)
  match s.dropWhile isGroupChar with
  | '.' :: rest =>
    let fraction ← ungroup Char.isDigit (rest.takeWhile isGroupChar)
    let power ← power? (rest.dropWhile isGroupChar)
    return (whole ++ fraction, power - fraction.length)
  | [] => none
  | rest => return (whole, ← power? rest)

/-- The least number that rounds to infinity in double precision. -/
def doubleOverflow : Nat :=
  Nat.pow 2 1024 - Nat.pow 2 970

/-- Whether `digits * 10 ^ power` is beyond the doubles. Numbers with a leading digit far from the
bound are told by its place alone. -/
def overflows (digits : List Char) (power : Int) : Bool :=
  let significant := digits.dropWhile (· == '0')
  let place := power + significant.length
  if significant.isEmpty ∨ place < 309 then false
  else if 309 < place then true
  else
    let n := digitsValue 10 significant
    if 0 ≤ power then decide (doubleOverflow ≤ n * Nat.pow 10 power.toNat)
    else decide (doubleOverflow * Nat.pow 10 (-power).toNat ≤ n)

/-- Whether a word is a floating-point number. Numbers beyond the doubles are refused. -/
def isFloat (word : List Char) : Bool :=
  let (_, rest) := splitSign word
  if rest = ['i', 'n', 'f'] ∨ rest = ['n', 'a', 'n'] then true
  else match decimal? rest with
    | some (digits, power) => !overflows digits power
    | none => false

/-! ## Dates and times -/

/-- The value of two digits, if it lies in a range. -/
def twoDigits (low high : Nat) (a b : Char) : Option Nat :=
  if a.isDigit ∧ b.isDigit then
    let n := digitsValue 10 [a, b]
    if low ≤ n ∧ n ≤ high then some n else none
  else none

/-- The number of days of a month. -/
def daysOfMonth (year month : Nat) : Nat :=
  if month = 2 then
    if year % 4 = 0 ∧ (year % 100 ≠ 0 ∨ year % 400 = 0) then 29 else 28
  else if month = 4 ∨ month = 6 ∨ month = 9 ∨ month = 11 then 30
  else 31

/-- Whether a text is a date. -/
def isDate : List Char → Bool
  | [y, y', y'', y''', '-', m, m', '-', d, d'] =>
    [y, y', y'', y'''].all Char.isDigit &&
      match twoDigits 1 12 m m' with
      | some month =>
        (twoDigits 1 (daysOfMonth (digitsValue 10 [y, y', y'', y''']) month) d d').isSome
      | none => false
  | _ => false

/-- What follows the fraction of a second, if there is one. -/
def dropFraction? : List Char → Option (List Char)
  | '.' :: c :: rest => if c.isDigit then some (rest.dropWhile Char.isDigit) else none
  | '.' :: [] => none
  | s => some s

/-- What follows the seconds of a time. TOML 1.1 lets them out. -/
def dropSeconds? (edition : Edition) : List Char → Option (List Char)
  | ':' :: s :: s' :: rest => if (twoDigits 0 60 s s').isSome then dropFraction? rest else none
  | s => if edition = .v11 then some s else none

/-- What follows a time of the day. -/
def dropTime? (edition : Edition) : List Char → Option (List Char)
  | h :: h' :: ':' :: m :: m' :: rest =>
    if (twoDigits 0 23 h h').isSome ∧ (twoDigits 0 59 m m').isSome then dropSeconds? edition rest
    else none
  | _ => none

/-- Whether a text is a time of the day. -/
def isTime (edition : Edition) (s : List Char) : Bool :=
  dropTime? edition s == some []

/-- Whether a text is a distance from universal time. -/
def isOffset : List Char → Bool
  | [c] => c == 'Z' || c == 'z'
  | [c, h, h', ':', m, m'] =>
    (c == '+' || c == '-') && (twoDigits 0 23 h h').isSome && (twoDigits 0 59 m m').isSome
  | _ => false

/-- Whether a text is a time of the day, which may have an offset. -/
def isTimeWithOffset (edition : Edition) (s : List Char) : Bool :=
  match dropTime? edition s with
  | some rest => rest.isEmpty || isOffset rest
  | none => false

/-- Whether a text is a date, a time, or both. -/
def isDateTime (edition : Edition) (s : List Char) : Bool :=
  if isTime edition s then true
  else
    isDate (s.take 10) &&
      match s.drop 10 with
      | [] => true
      | c :: rest => (c == 'T' || c == 't' || c == ' ') && isTimeWithOffset edition rest

/-! ## Words -/

/-- The value of a word. -/
def scalar? (edition : Edition) (word : List Char) : Option Config.Value :=
  if word = ['t', 'r', 'u', 'e'] then some (.boolean true)
  else if word = ['f', 'a', 'l', 's', 'e'] then some (.boolean false)
  else match integer? word with
    | some n => some (.integer n)
    | none =>
      if isFloat word then some .float
      else if isDateTime edition word then some (.table [])
      else none

/-- The word at the start of a text, and what follows it. A blank may stand between a date and its
time. -/
def takeWord (s : List Char) : List Char × List Char :=
  let word := s.takeWhile isWordChar
  let rest := s.dropWhile isWordChar
  match rest with
  | ' ' :: a :: b :: ':' :: more =>
    if isDate word ∧ a.isDigit ∧ b.isDigit then
      let time := a :: b :: ':' :: more
      (word ++ ' ' :: time.takeWhile isWordChar, time.dropWhile isWordChar)
    else (word, rest)
  | _ => (word, rest)

/-- Reads a word that is a value, and gives what follows it. -/
def readScalar (dialect : Dialect) (s : List Char) : Option (Config.Value × List Char) :=
  let (word, rest) := takeWord s
  match scalar? dialect.edition word with
  | some (.integer n) => if dialect.integers.holds n then some (.integer n, rest) else none
  | some value => some (value, rest)
  | none => none

end NeighborSearch.Toml
