import NeighborSearch.Json.Decode
import NeighborSearch.Proofs.Decimal.Range
import NeighborSearch.Proofs.Double.Size
import NeighborSearch.Proofs.Json.Records

/-!
# Values read as any value

A value that is kept as it is read becomes doubles where it has numbers that are no integers, and is
refused where such a number is beyond the doubles. This file gives

1. numerals of a few digits before the point and a small power of ten, which are all in range;
2. the numerals of singles, which have this form;
3. values made of texts, natural numbers and singles, which are all read.
-/

namespace NeighborSearch

namespace Json

/-! ## Scaling -/

section Scaling

variable {exponent : Int}

/-- Dividing never overflows. -/
theorem isSome_scale_of_neg (x : Float) (steps : Nat) (h : exponent < 0) :
    (scale x exponent steps).isSome = true := by
  have hlargest : largestPower = 308 := rfl
  induction steps generalizing x exponent with
  | zero => rfl
  | succ steps ih =>
    rw [scale]
    split
    case isTrue =>
      rw [if_neg (by omega)]
      rfl
    case isFalse hlarge =>
      split
      case isTrue => rfl
      case isFalse =>
        rw [if_neg (by omega)]
        exact ih _ (by omega)

theorem isSome_scale (n : UInt64) (steps : Nat) (h : exponent < 39) :
    (scale n.toFloat exponent steps).isSome = true := by
  by_cases hneg : exponent < 0
  · exact isSome_scale_of_neg _ steps hneg
  · cases steps with
    | zero => rfl
    | succ steps =>
      have hlargest : largestPower = 308 := rfl
      have hfinite := Double.isInf_mul_powerOfTen n (n := exponent.natAbs) (by omega)
      rw [scale, if_pos (by omega), if_pos (by omega)]
      simp only [hfinite, Bool.false_eq_true, if_false, Option.isSome_some]

end Scaling

/-! ## Gathering digits -/

section Gathering

variable {g : Gathered} {digits : List Char}

theorem digitValue_le {c : Char} (h : c.isDigit = true) : digitValue c ≤ 9 := by
  have hle : c.toNat ≤ 57 := (Char.isDigit_iff_toNat.1 h).2
  have hzero : '0'.toNat = 48 := rfl
  rw [digitValue, hzero]
  omega

/-- Nineteen digits always fit. -/
theorem exponent_gatherWhole {k : Nat} (hdigits : ∀ c ∈ digits, c.isDigit = true)
    (hg : g.significand < 10 ^ k) (hk : k + digits.length ≤ 19) :
    (gatherWhole g digits).exponent = g.exponent := by
  induction digits generalizing g k with
  | nil => rfl
  | cons digit rest ih =>
    have hvalue := digitValue_le (hdigits digit List.mem_cons_self)
    rw [List.length_cons] at hk
    have hnext : g.significand * 10 + digitValue digit < 10 ^ (k + 1) := by
      rw [Nat.pow_succ]
      omega
    have hfits : g.fits digit = true := by
      refine decide_eq_true (hnext.trans_le ?_)
      calc 10 ^ (k + 1) ≤ 10 ^ 19 := Nat.pow_le_pow_right (by decide) (by omega)
        _ ≤ UInt64.size := by decide
    rw [gatherWhole, if_pos hfits]
    exact ih (fun c hc => hdigits c (List.mem_cons_of_mem digit hc)) hnext (by omega)

/-- Digits after the point only make the exponent smaller. -/
theorem exponent_gatherFraction_le (g : Gathered) (digits : List Char) :
    (gatherFraction g digits).exponent ≤ g.exponent := by
  induction digits generalizing g with
  | nil => exact Int.le_refl _
  | cons digit rest ih =>
    rw [gatherFraction]
    split
    case isTrue => exact (ih _).trans (by simp)
    case isFalse => exact Int.le_refl _

end Gathering

/-! ## Numerals in range -/

/-- What makes a numeral small enough for the doubles by its form alone. -/
structure Numeral.InRange (n : Numeral) : Prop where
  whole : ∀ c ∈ n.whole, c.isDigit = true
  length : n.whole.length ≤ 19
  power : ∀ digits, n.power = some (false, digits) → digitsValue digits < 39

theorem Numeral.InRange.isSome_size {n : Numeral} (h : n.InRange) : n.size.isSome = true := by
  have hwhole : (gatherWhole ⟨0, 0⟩ n.whole).exponent = 0 :=
    exponent_gatherWhole (k := 0) h.whole (by decide) (by rw [Nat.zero_add]; exact h.length)
  have hexponent := exponent_gatherFraction_le (gatherWhole ⟨0, 0⟩ n.whole) n.fraction
  rw [hwhole] at hexponent
  unfold size
  dsimp only
  split
  case h_1 => exact isSome_scale _ 4 (by omega)
  case h_2 negative digits hpower =>
    split
    case isTrue hlarge =>
      -- only a negative power can be that large
      have hnegative : negative = true := by
        cases negative with
        | true => rfl
        | false =>
          have hsmall := h.power digits hpower
          have hgreatest : greatestWrittenPower = 0x7fffffff := rfl
          omega
      rw [hnegative, if_neg (by simp)]
      rfl
    case isFalse =>
      refine isSome_scale _ 4 ?_
      cases negative with
      | true =>
        simp only [if_true]
        omega
      | false =>
        have hsmall := h.power digits hpower
        simp only [Bool.false_eq_true, if_false]
        omega

theorem Numeral.InRange.isSome_value? {n : Numeral} (h : n.InRange) : n.value?.isSome = true := by
  unfold value?
  dsimp only
  split
  case isTrue => split_ifs <;> rfl
  case isFalse =>
    rw [Option.isSome_map]
    exact h.isSome_size

end Json

/-! ## The numerals of singles -/

namespace Decimal

/-- Positions are written out only as long as there are few of them. -/
theorem Digits.inRange_numeral {d : Digits} (h : d.leading < 39) (negative : Bool) :
    (d.numeral singleLayout negative).InRange := by
  have hpos := d.length_text_pos
  have hgreatest : singleLayout.greatest = 12 := rfl
  unfold numeral
  split
  · split
    · refine ⟨?_, ?_, by simp⟩
      · intro c hc
        obtain hc | hc := List.mem_append.1 hc
        · exact isDigit_of_mem_text c hc
        · exact isDigit_of_mem_zeros c hc
      · rw [List.length_append, zeros, List.length_replicate]
        unfold leading at *
        omega
    · split
      · refine ⟨fun c hc => isDigit_of_mem_text c (List.mem_of_mem_take hc), ?_, by simp⟩
        dsimp only
        rw [List.length_take]
        omega
      · exact ⟨by simp, by simp, by simp⟩
  · refine ⟨fun c hc => isDigit_of_mem_text c (List.mem_of_mem_take hc), ?_, ?_⟩
    · dsimp only
      rw [List.length_take]
      omega
    · intro digits hpower
      obtain ⟨hsign, rfl⟩ := Prod.mk.inj (Option.some.inj hpower)
      have hnonneg : ¬d.leading < 0 := of_decide_eq_false hsign
      rw [RawJson.digitsValue_toDigits]
      omega

theorem inRange_singleNumeral (x : Float32) : (singleNumeral x).InRange := by
  unfold singleNumeral Magnitude.numeral
  split
  · exact ⟨by simp, by simp, by simp⟩
  · exact Digits.inRange_numeral (Magnitude.leading_ofSingleBits_lt (by omega)) _

end Decimal

/-! ## Values -/

namespace RawJson

/-- A value that is made of texts, natural numbers and singles, with at most `depth` arrays and
objects inside each other. -/
inductive Plain : (depth : Nat) → Json → Prop
  | string {depth : Nat} (s : String) : Plain depth (.string s)
  | natural {depth : Nat} (n : UInt64) : Plain depth (.natural n)
  | single {depth : Nat} (x : Float32) : Plain depth (.single x)
  | array {depth : Nat} {items : List Json} (h : ∀ item ∈ items, Plain depth item) :
    Plain (depth + 1) (.array items)
  | object {depth : Nat} {members : List (String × Json)}
    (h : ∀ member ∈ members, Plain depth member.2) : Plain (depth + 1) (.object members)

variable {depth : Nat} {value : Json} {items : List Json} {members : List (String × Json)}

theorem isSome_value?_natural (depth : Nat) (n : UInt64) :
    ((Json.natural n).toRaw.value? depth).isSome = true := by
  have hread := number?_natural n
  rw [Json.natural, Json.toRaw, Json.Number.toRaw] at hread ⊢
  simp only [Json.Number.numeral?, number?] at hread ⊢
  rw [value?, hread]
  rfl

/-- A single that is not finite is written as `null`, and this is read. -/
theorem isSome_value?_single (depth : Nat) (x : Float32) :
    ((Json.single x).toRaw.value? depth).isSome = true := by
  rw [Json.single, Json.toRaw, Json.Number.toRaw, Json.Number.numeral?]
  cases x.isFinite with
  | false =>
    simp only [Bool.false_eq_true, if_false, value?]
    rfl
  | true =>
    simp only [if_true, value?]
    rw [Option.isSome_map]
    exact (Decimal.inRange_singleNumeral x).isSome_value?

theorem isSome_values? (h : ∀ item ∈ items, (item.toRaw.value? depth).isSome = true) :
    (values? depth (Json.rawItems items)).isSome = true := by
  induction items with
  | nil => rw [Json.rawItems, values?]; rfl
  | cons item rest ih =>
    obtain ⟨v, hv⟩ := Option.isSome_iff_exists.1 (h item List.mem_cons_self)
    obtain ⟨vs, hvs⟩ := Option.isSome_iff_exists.1
      (ih fun other hmem => h other (List.mem_cons_of_mem item hmem))
    rw [Json.rawItems, values?, hv, hvs]
    rfl

theorem isSome_members? (found : List (String × Json))
    (h : ∀ member ∈ members, (member.2.toRaw.value? depth).isSome = true) :
    (members? depth (Json.rawMembers members) found).isSome = true := by
  induction members generalizing found with
  | nil => rw [Json.rawMembers, members?]; rfl
  | cons member rest ih =>
    obtain ⟨name, value⟩ := member
    obtain ⟨v, hv⟩ := Option.isSome_iff_exists.1 (h (name, value) List.mem_cons_self)
    rw [Json.rawMembers, members?, unescape_escape, hv]
    exact ih _ fun other hmem => h other (List.mem_cons_of_mem _ hmem)

/-- Whatever is made of texts, natural numbers and singles is read. -/
theorem Plain.isSome_value? (h : Plain depth value) : (value.toRaw.value? depth).isSome = true := by
  induction h with
  | string s =>
    rw [Json.toRaw, value?, unescape_escape]
    rfl
  | natural n => exact isSome_value?_natural _ n
  | single x => exact isSome_value?_single _ x
  | array _ ih =>
    rw [Json.toRaw, value?, Option.isSome_map]
    exact isSome_values? ih
  | object _ ih =>
    rw [Json.toRaw, value?, Option.isSome_map]
    exact isSome_members? [] ih

end RawJson

end NeighborSearch
