import NeighborSearch.Json.Printer
import NeighborSearch.Json.Raw
import NeighborSearch.Proofs.Decimal.Shortest
import NeighborSearch.Proofs.Text.Digits

/-!
# Numbers in JSON

Every number that is written is read as the numeral that it was written as, digit by digit. The
numeral of a float has the digits of its shortest decimal; what a numeral stands for is another
matter, and not looked at here.
-/

namespace NeighborSearch

open Text (IsDigits isDigits_toDigits startsWith)

namespace Json

/-! ## Numerals -/

/-- The point and the digits after it. -/
def fractionText (digits : List Char) : List Char :=
  match digits with
  | [] => []
  | digits => '.' :: digits

/-- The power of ten with its sign. -/
def powerText : Option (Bool × List Char) → List Char
  | none => []
  | some (negative, digits) => 'e' :: (if negative then '-' else '+') :: digits

/-- The text of a numeral. -/
def Numeral.text (n : Numeral) : List Char :=
  (if n.negative then ['-'] else []) ++ (n.whole ++ (fractionText n.fraction ++ powerText n.power))

/-- What the grammar asks of a numeral: no needless zero at its start, and digits wherever digits
stand. -/
structure Numeral.Valid (n : Numeral) : Prop where
  whole : IsDigits n.whole
  lead : n.whole.head? = some '0' → n.whole = ['0']
  fraction : ∀ c ∈ n.fraction, c.isDigit = true
  power : ∀ negative digits, n.power = some (negative, digits) → IsDigits digits

/-- Whether a character would go on with a number. -/
def continuesNumber (c : Char) : Bool :=
  c.isDigit || c == '.' || c == 'e' || c == 'E'

/-- An integer that is written as a number. -/
def integerNumeral (negative : Bool) (n : Nat) : Numeral :=
  ⟨negative, Nat.toDigits 10 n, [], none⟩

theorem integerNumeral_valid (negative : Bool) (n : Nat) : (integerNumeral negative n).Valid where
  whole := isDigits_toDigits n
  lead := Text.toDigits_of_head?
  fraction := by simp [integerNumeral]
  power := by simp [integerNumeral]

end Json

namespace RawJson

open Json (Numeral continuesNumber fractionText powerText)

/-! ## Reading a numeral -/

section

variable {rest : List Char}

theorem not_digit_of_not_continues (h : startsWith continuesNumber rest = false) :
    startsWith Char.isDigit rest = false := by
  cases rest with
  | nil => rfl
  | cons c rest =>
    rw [Text.startsWith_cons] at h ⊢
    simp only [continuesNumber, Bool.or_eq_false_iff] at h
    exact h.1.1.1

theorem scanDigits_digits {digits : List Char} (hdigits : IsDigits digits)
    (hrest : startsWith Char.isDigit rest = false) :
    scanDigits (digits ++ rest) = some (digits, rest) := by
  obtain ⟨c, digits', rfl⟩ := List.exists_cons_of_ne_nil hdigits.nonempty
  rw [scanDigits, Text.takeWhile_run hdigits.digits hrest, Text.dropWhile_run hdigits.digits hrest]

theorem scanWhole_digits {digits : List Char} (hdigits : IsDigits digits)
    (hlead : digits.head? = some '0' → digits = ['0'])
    (hrest : startsWith Char.isDigit rest = false) :
    scanWhole (digits ++ rest) = some (digits, rest) := by
  by_cases hzero : digits.head? = some '0'
  · rw [hlead hzero]
    have hnext : rest.head?.any Char.isDigit = false := hrest
    simp only [scanWhole, List.cons_append, List.nil_append, hnext, Bool.false_eq_true, if_false]
  · obtain ⟨c, digits', rfl⟩ := List.exists_cons_of_ne_nil hdigits.nonempty
    have hc : c ≠ '0' := fun h => hzero (by rw [h]; rfl)
    rw [scanWhole, scanDigits_digits hdigits hrest]
    intro t h
    exact hc (List.cons.inj h).1

theorem scanFraction_text {digits : List Char} (hdigits : ∀ c ∈ digits, c.isDigit = true)
    (hrest : startsWith Char.isDigit rest = false) (hpoint : rest.head? ≠ some '.') :
    scanFraction (fractionText digits ++ rest) = some (digits, rest) := by
  cases digits with
  | nil =>
    rw [fractionText, List.nil_append, scanFraction]
    rintro t rfl
    exact hpoint rfl
  | cons c digits => exact scanDigits_digits ⟨List.cons_ne_nil c digits, hdigits⟩ hrest

theorem scanPower_text {power : Option (Bool × List Char)}
    (hpower : ∀ negative digits, power = some (negative, digits) → IsDigits digits)
    (hrest : startsWith continuesNumber rest = false) :
    scanPower (powerText power ++ rest) = some (power, rest) := by
  match power with
  | none =>
    cases rest with
    | nil => rfl
    | cons c rest =>
      have hc : ¬(c = 'e' ∨ c = 'E') := by
        rw [Text.startsWith_cons] at hrest
        simp [continuesNumber] at hrest
        simp [hrest]
      simp only [powerText, List.nil_append, scanPower, if_neg hc]
  | some (negative, digits) =>
    have hdigits :=
      scanDigits_digits (hpower negative digits rfl) (not_digit_of_not_continues hrest)
    cases negative <;> simp [powerText, scanPower, scanPowerSign, hdigits]

/-- Neither digits nor a point follow the digits after the point. -/
theorem powerText_start (power : Option (Bool × List Char))
    (hrest : startsWith continuesNumber rest = false) :
    startsWith Char.isDigit (powerText power ++ rest) = false
      ∧ (powerText power ++ rest).head? ≠ some '.' := by
  match power with
  | some (negative, digits) => exact ⟨rfl, by simp [powerText]⟩
  | none =>
    refine ⟨not_digit_of_not_continues hrest, ?_⟩
    rintro hpoint
    obtain ⟨t, rfl⟩ : ∃ t, rest = '.' :: t := List.head?_eq_some_iff.1 hpoint
    exact absurd hrest Bool.noConfusion

/-- No digits follow the digits before the point. -/
theorem fractionText_start (digits : List Char) (power : Option (Bool × List Char))
    (hrest : startsWith continuesNumber rest = false) :
    startsWith Char.isDigit (fractionText digits ++ (powerText power ++ rest)) = false := by
  cases digits with
  | nil => exact (powerText_start power hrest).1
  | cons c digits => rfl

/-- Reads a number after its sign. -/
def scanUnsigned (negative : Bool) (s : List Char) : Option (Numeral × List Char) := do
  let (whole, s) ← scanWhole s
  let (fraction, s) ← scanFraction s
  let (power, s) ← scanPower s
  return (⟨negative, whole, fraction, power⟩, s)

theorem scanNumeral_minus (s : List Char) : scanNumeral ('-' :: s) = scanUnsigned true s := rfl

theorem scanNumeral_of_head {s : List Char} (h : s.head? ≠ some '-') :
    scanNumeral s = scanUnsigned false s := by
  unfold scanNumeral
  split
  next negative t hsign =>
  split at hsign
  · exact absurd rfl h
  · obtain ⟨rfl, rfl⟩ := Prod.mk.inj hsign
    rfl

theorem scanUnsigned_text {n : Numeral} (hn : n.Valid)
    (hrest : startsWith continuesNumber rest = false) :
    scanUnsigned n.negative (n.whole ++ (fractionText n.fraction ++ (powerText n.power ++ rest)))
      = some (n, rest) := by
  have hstart := powerText_start n.power hrest
  have hwhole := scanWhole_digits hn.whole hn.lead (fractionText_start n.fraction n.power hrest)
  have hfraction := scanFraction_text hn.fraction hstart.1 hstart.2
  have hpower := scanPower_text hn.power hrest
  simp [scanUnsigned, hwhole, hfraction, hpower]

/-- The text of a numeral is read up to its end. -/
theorem scanNumeral_text {n : Numeral} (hn : n.Valid)
    (hrest : startsWith continuesNumber rest = false) :
    scanNumeral (n.text ++ rest) = some (n, rest) := by
  have hread := scanUnsigned_text hn hrest
  cases hsign : n.negative with
  | true =>
    rw [hsign] at hread
    simp only [Numeral.text, hsign, if_true, List.append_assoc, List.cons_append,
      List.nil_append, scanNumeral_minus, hread]
  | false =>
    rw [hsign] at hread
    simp only [Numeral.text, hsign, Bool.false_eq_true, if_false, List.append_assoc,
      List.nil_append]
    rw [scanNumeral_of_head, hread]
    rw [List.head?_append_of_ne_nil _ hn.whole.nonempty]
    intro hminus
    exact absurd (hn.whole.digits '-' (List.mem_of_head? hminus)) (by decide)

end

end RawJson

/-! ## The numerals of decimals -/

namespace Decimal

open Json (Numeral fractionText powerText)

theorem isDigit_of_mem_zeros {n : Nat} : ∀ c ∈ zeros n, c.isDigit = true := by
  intro c hc
  rw [List.eq_of_mem_replicate hc]
  rfl

/-- The numeral of a decimal in a layout. -/
def Digits.numeral (layout : Layout) (negative : Bool) (d : Digits) : Numeral :=
  if layout.least ≤ d.leading ∧ d.leading ≤ layout.greatest then
    if 0 ≤ d.exponent then ⟨negative, d.text ++ zeros d.exponent.toNat, ['0'], none⟩
    else if 0 ≤ d.leading then
      ⟨negative, d.text.take (d.leading + 1).toNat, d.text.drop (d.leading + 1).toNat, none⟩
    else ⟨negative, ['0'], zeros (-d.leading - 1).toNat ++ d.text, none⟩
  else
    ⟨negative, d.text.take 1, d.text.drop 1,
      some (decide (d.leading < 0), Nat.toDigits 10 d.leading.natAbs)⟩

variable {d : Digits}

theorem Digits.isDigit_of_mem_text : ∀ c ∈ d.text, c.isDigit = true :=
  (isDigits_toDigits d.digits).digits

theorem Digits.length_text_pos : 0 < d.text.length :=
  Nat.length_toDigits_pos

/-- The digits before the point are not all of them where the power of ten is negative. -/
theorem Digits.drop_whole_ne_nil (h : d.exponent < 0) :
    d.text.drop (d.leading + 1).toNat ≠ [] := by
  have hlength := d.length_text_pos
  have hwhole : (d.leading + 1).toNat < d.text.length := by
    unfold leading
    omega
  simp only [ne_eq, List.drop_eq_nil_iff]
  omega

theorem fractionText_of_ne_nil {digits : List Char} (h : digits ≠ []) :
    fractionText digits = '.' :: digits := by
  cases digits with
  | nil => exact absurd rfl h
  | cons c digits => rfl

theorem Digits.text_numeral (layout : Layout) (negative : Bool) (d : Digits) :
    (d.numeral layout negative).text
      = (if negative then ['-'] else []) ++ d.render layout := by
  unfold numeral render
  by_cases hlayout : layout.least ≤ d.leading ∧ d.leading ≤ layout.greatest
  · rw [if_pos hlayout, if_pos hlayout, positional]
    by_cases hexponent : 0 ≤ d.exponent
    · rw [if_pos hexponent, if_pos hexponent]
      simp [Numeral.text, fractionText, powerText]
    · rw [if_neg hexponent, if_neg hexponent]
      by_cases hleading : 0 ≤ d.leading
      · rw [if_pos hleading, if_pos hleading]
        -- digits are left after the point, so the point is written
        have hrest := d.drop_whole_ne_nil (by omega)
        simp [Numeral.text, fractionText_of_ne_nil hrest, powerText]
      · rw [if_neg hleading, if_neg hleading]
        have hrest : zeros (-d.leading - 1).toNat ++ d.text ≠ [] := by
          have := d.length_text_pos
          simp only [ne_eq, List.append_eq_nil_iff, not_and]
          intro _ hnil
          rw [hnil] at this
          exact absurd this (by decide)
        simp only [Numeral.text, fractionText_of_ne_nil hrest, powerText, List.append_nil,
          List.cons_append, List.nil_append]
  · rw [if_neg hlayout, if_neg hlayout, scientific]
    cases d.text.drop 1 with
    | nil => simp [Numeral.text, powerText, fractionText]
    | cons c rest => simp [Numeral.text, powerText, fractionText]

theorem Digits.isDigits_take {n : Nat} (h : 0 < n) : IsDigits (d.text.take n) where
  nonempty := by
    have := d.length_text_pos
    simp only [ne_eq, List.take_eq_nil_iff, not_or]
    exact ⟨by omega, List.ne_nil_of_length_pos this⟩
  digits c hc := isDigit_of_mem_text c (List.mem_of_mem_take hc)

/-- A decimal that is not zero has a numeral without a needless zero. -/
theorem Digits.numeral_valid (layout : Layout) (negative : Bool) (h : 0 < d.digits) :
    (d.numeral layout negative).Valid := by
  have hlead : d.text.head? ≠ some '0' := Text.head?_toDigits h
  have hnonempty : d.text ≠ [] := List.ne_nil_of_length_pos d.length_text_pos
  have htake : ∀ n, 0 < n → (d.text.take n).head? ≠ some '0' := by
    intro n hn
    rwa [List.head?_take, if_neg (by omega)]
  unfold numeral
  -- all digits before the point, digits on both sides, none before it, and a power of ten
  split
  · split
    · refine ⟨⟨by simp [hnonempty], ?_⟩, ?_, by simp, by simp⟩
      · intro c hc
        obtain hc | hc := List.mem_append.1 hc
        · exact isDigit_of_mem_text c hc
        · exact isDigit_of_mem_zeros c hc
      · intro hzero
        rw [List.head?_append_of_ne_nil _ hnonempty] at hzero
        exact absurd hzero hlead
    · split
      · have hwhole : 0 < (d.leading + 1).toNat := by omega
        refine ⟨isDigits_take hwhole, fun hzero => absurd hzero (htake _ hwhole), ?_, by simp⟩
        exact fun c hc => isDigit_of_mem_text c (List.mem_of_mem_drop hc)
      · refine ⟨⟨by simp, by simp⟩, fun _ => rfl, ?_, by simp⟩
        intro c hc
        obtain hc | hc := List.mem_append.1 hc
        · exact isDigit_of_mem_zeros c hc
        · exact isDigit_of_mem_text c hc
  · refine ⟨isDigits_take Nat.one_pos, fun hzero => absurd hzero (htake 1 Nat.one_pos), ?_, ?_⟩
    · exact fun c hc => isDigit_of_mem_text c (List.mem_of_mem_drop hc)
    · rintro _ _ hpower
      obtain ⟨rfl, rfl⟩ := Prod.mk.inj (Option.some.inj hpower)
      exact isDigits_toDigits _

/-- The numeral of a magnitude in a layout. -/
def Magnitude.numeral (layout : Layout) (negative : Bool) (x : Magnitude) : Numeral :=
  if x.mantissa = 0 then ⟨negative, ['0'], ['0'], none⟩ else x.shortest.numeral layout negative

theorem Magnitude.text_numeral (layout : Layout) (negative : Bool) (x : Magnitude) :
    (x.numeral layout negative).text = (if negative then ['-'] else []) ++ x.render layout := by
  unfold numeral render
  split
  · rfl
  · exact x.shortest.text_numeral layout negative

theorem Magnitude.numeral_valid (layout : Layout) (negative : Bool) (x : Magnitude) :
    (x.numeral layout negative).Valid := by
  unfold numeral
  split
  · exact ⟨⟨by simp, by simp⟩, fun _ => rfl, by simp, by simp⟩
  · next h => exact Digits.numeral_valid layout negative (shortest_digits_pos (by omega))

/-- The numeral of a single. -/
def singleNumeral (x : Float32) : Numeral :=
  (Magnitude.ofSingleBits x.toBits).numeral singleLayout (isNegativeSingle x)

/-- The numeral of a double. -/
def doubleNumeral (x : Float) : Numeral :=
  (Magnitude.ofDoubleBits x.toBits).numeral doubleLayout (isNegativeDouble x)

theorem text_singleNumeral (x : Float32) : (singleNumeral x).text = shortestSingle x := by
  rw [singleNumeral, Magnitude.text_numeral, shortestSingle]
  cases isNegativeSingle x <;> rfl

theorem text_doubleNumeral (x : Float) : (doubleNumeral x).text = shortestDouble x := by
  rw [doubleNumeral, Magnitude.text_numeral, shortestDouble]
  cases isNegativeDouble x <;> rfl

end Decimal

/-! ## The numerals of numbers -/

namespace Json.Number

/-- The numeral that a number is written as. A number that is not finite has none. -/
def numeral? : Number → Option Numeral
  | natural n => some (integerNumeral false n.toNat)
  | negative n => some (integerNumeral true n.toInt.natAbs)
  | single x => if x.isFinite then some (Decimal.singleNumeral x) else none
  | double x => if x.isFinite then some (Decimal.doubleNumeral x) else none

theorem valid_of_numeral? {x : Number} {n : Numeral} (h : x.numeral? = some n) : n.Valid := by
  cases x with
  | natural m =>
    obtain rfl := Option.some.inj h
    exact integerNumeral_valid false m.toNat
  | negative m =>
    obtain rfl := Option.some.inj h
    exact integerNumeral_valid true m.toInt.natAbs
  | single x =>
    obtain ⟨_, hn⟩ := Option.ite_none_right_eq_some.1 h
    obtain rfl := Option.some.inj hn
    exact Decimal.Magnitude.numeral_valid _ _ _
  | double x =>
    obtain ⟨_, hn⟩ := Option.ite_none_right_eq_some.1 h
    obtain rfl := Option.some.inj hn
    exact Decimal.Magnitude.numeral_valid _ _ _

/-- A number is written as its numeral, or as `null`. -/
theorem text_eq (x : Number) :
    x.text = match x.numeral? with
      | some n => n.text
      | none => ['n', 'u', 'l', 'l'] := by
  cases x with
  | natural n => simp [text, numeral?, Numeral.text, integerNumeral, fractionText, powerText]
  | negative n => simp [text, numeral?, Numeral.text, integerNumeral, fractionText, powerText]
  | single x => cases h : x.isFinite <;> simp [text, numeral?, h, Decimal.text_singleNumeral]
  | double x => cases h : x.isFinite <;> simp [text, numeral?, h, Decimal.text_doubleNumeral]

end Json.Number

end NeighborSearch
