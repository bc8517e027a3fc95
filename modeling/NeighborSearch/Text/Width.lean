import NeighborSearch.Text.Width.Emoji
import NeighborSearch.Text.Width.Letters

/-!
# Display width

The number of columns that a text takes on a terminal. A character on its own takes `charWidth`;
some characters form one sign with their neighbours, and then the sign has a width of its own:

* a character and a selector after it: emoji of two columns, emoji as narrow text, wide quotation
  marks;
* a person with a skin tone, emoji with joiners between them, flags: two columns;
* letters that are drawn as one, in Arabic, Hebrew, Buginese, Tifinagh, Lisu, Old Turkic, Khmer and
  Kirat Rai.

What characters form is decided from right to left, so a text ends where it stands: what precedes it
does not change its width.
-/

namespace NeighborSearch.Text

/-- Joins the characters on both sides of it. -/
def joiner : Char := '\u200d'

/-- Says how the character before it is shown. -/
inductive Selector where
  | emoji
  | text
  /-- As a wide quotation mark. -/
  | wide
deriving DecidableEq, Repr

/-- The selector that a character is. -/
def selector? (c : Char) : Option Selector :=
  match c with
  | '\ufe0f' => some .emoji
  | '\ufe0e' => some .text
  | '\ufe01' => some .wide
  | _ => none

/-- A letter that may be drawn as one with what precedes it. -/
inductive Letter where
  /-- The Hebrew letter Lamed. -/
  | lamed
  /-- The Buginese letter Ya. -/
  | ya
  /-- The Buginese vowel I with a joiner and Ya. -/
  | vowelYa
  /-- A consonant of Tifinagh. -/
  | consonant
  /-- The consonant joiner of Tifinagh with a consonant. -/
  | boundConsonant
  /-- The second letter of a tone in Lisu. -/
  | tone
  /-- The Old Turkic letter I. -/
  | turkicI
  /-- A Khmer letter with a subscript form. -/
  | subscriptLetter
deriving DecidableEq, Repr

/-- What a text begins with, as far as the width of a character before it depends on that. -/
inductive Start where
  /-- Nothing that forms anything with a character before it. -/
  | plain
  /-- An Alef, with marks before it or without. -/
  | alef
  /-- A letter, with marks before it or without. The flag says whether a joiner is among them. -/
  | letter (letter : Letter) (hasJoiner : Bool)
  /-- The vowel sign E of Kirat Rai. -/
  | vowelE
  /-- The vowel sign Ai of Kirat Rai. -/
  | vowelAi
  /-- A whole emoji. -/
  | emoji
  /-- A skin tone. -/
  | modifier
  /-- A letter of a flag. -/
  | flagLetter
  /-- Several letters of flags. -/
  | flagLetters
  /-- A joiner and a whole emoji. -/
  | joined
  /-- The mark of a key, a joiner and a whole emoji. -/
  | joinedKey
  /-- A letter of a flag, a joiner and a whole emoji. -/
  | joinedFlagLetter
  /-- Whole flags, a joiner and a whole emoji. -/
  | joinedFlags
  /-- A letter of a flag, whole flags, a joiner and a whole emoji. -/
  | joinedOddFlags
  /-- So many letters of the flag of a region, its end, a joiner and a whole emoji. -/
  | joinedTagLetters (count : Nat)
  /-- So many digits of the flag of a region, and what may follow them. -/
  | joinedTagDigits (count : Nat)
deriving DecidableEq, Repr

namespace Start

/-- Whether marks may stand before what a text begins with without changing what it forms. -/
def isLetter : Start → Bool
  | alef | letter _ _ => true
  | _ => false

/-- Whether an emoji in front becomes part of the one that a text begins with. -/
def isJoined : Start → Bool
  | joined | joinedKey => true
  | _ => false

/-- What a text of one character begins with. -/
def ofChar (c : Char) : Start :=
  if isModifier c then .modifier
  else if isEmoji c then .emoji
  else if isFlagLetter c then .flagLetter
  else if isAlef c then .alef
  else if isSubscriptLetter c then .letter .subscriptLetter false
  else if isTifinaghConsonant c then .letter .consonant false
  else if isSecondTone c then .letter .tone false
  else match c.toNat with
    | 0x05dc => .letter .lamed false
    | 0x1a10 => .letter .ya false
    | 0x10c03 => .letter .turkicI false
    | 0x16d67 => .vowelE
    | 0x16d68 => .vowelAi
    | _ => .plain

end Start

/-- The columns that a character adds to a letter with which it is drawn as one, and what the text
then begins with. -/
def Letter.bind? (c : Char) : Letter → (hasJoiner : Bool) → Option (Int × Start)
  | lamed, true => if c = '\u05d0' then some (0, .plain) else none
  | lamed, false => none
  | ya, true => if c = '\u1a17' then some (0, .letter .vowelYa true) else none
  | ya, false => none
  | vowelYa, _ => if c = '\u1a15' then some (0, .plain) else none
  | consonant, hasJoiner =>
    if c = '\u2d7f' then some (1, .letter .boundConsonant true)
    else if hasJoiner ∧ isTifinaghConsonant c then some (0, .plain)
    else none
  | boundConsonant, _ => if isTifinaghConsonant c then some (-1, .plain) else none
  | tone, _ => if isFirstTone c then some (0, .plain) else none
  | turkicI, true => if c.toNat = 0x10c32 then some (0, .plain) else none
  | turkicI, false => none
  | subscriptLetter, _ => if c = '\u17d2' then some (-1, .plain) else none

/-- The columns that a character adds to the end of the flag of a region, `count` letters of which
are read, and what the text then begins with. -/
def tagLetter? (c : Char) (count : Nat) : Option (Int × Start) :=
  if isTagLetter c ∧ count < 6 then some (0, .joinedTagLetters (count + 1))
  else if isTagDigit c ∧ count < 5 then some (0, .joinedTagDigits 1)
  else if c.toNat = 0x1f3f4 ∧ 2 < count then some (0, .emoji)
  else none

/-- The columns that a character adds to what it forms one sign with, and what the text then begins
with. -/
def Start.bind? (c : Char) : Start → Option (Int × Start)
  | plain => none
  | alef =>
    if isLam c then some (0, .plain)
    else if isTransparent c then some (0, .alef)
    else none
  | letter l hasJoiner =>
    if c = joiner then some (0, .letter l true)
    else if isHidden c then some (0, .letter l hasJoiner)
    else l.bind? c hasJoiner
  | vowelE =>
    match c.toNat with
    | 0x16d63 | 0x16d69 => some (0, .plain)
    | 0x16d67 => some (0, .vowelAi)
    | 0x16d68 => some (1, .vowelE)
    | _ => none
  | vowelAi => if c.toNat = 0x16d63 then some (0, .plain) else none
  | emoji => if c = joiner then some (0, .joined) else none
  | modifier =>
    if isModifierBase c then some (0, .emoji)
    else if c = joiner then some (0, .joined)
    else none
  | flagLetter => if isFlagLetter c then some (1, .flagLetters) else none
  | flagLetters =>
    if isFlagLetter c then some (1, .flagLetters)
    else if c = joiner then some (0, .joined)
    else none
  | joined =>
    if c = '\u20e3' then some (0, .joinedKey)
    else if isFlagLetter c then some (1, .joinedFlagLetter)
    else if isModifier c then some (0, .modifier)
    else if c.toNat = 0xe007f then some (0, .joinedTagLetters 0)
    else if isEmoji c then some (0, .emoji)
    else none
  | joinedKey => none
  | joinedFlagLetter => if isFlagLetter c then some (-1, .joinedFlags) else none
  | joinedFlags =>
    if isFlagLetter c then some (3, .joinedOddFlags)
    else if c = joiner then some (0, .joined)
    else none
  | joinedOddFlags =>
    if isFlagLetter c then some (-1, .joinedFlags)
    else if c = joiner then some (0, .joined)
    else none
  | joinedTagLetters count => tagLetter? c count
  | joinedTagDigits count =>
    if isTagDigit c ∧ count < 3 then some (0, .joinedTagDigits (count + 1))
    else if c.toNat = 0x1f3f4 ∧ count = 3 then some (0, .emoji)
    else none

/-- What stands to the right of a character, as far as its width depends on that. -/
structure Context where
  selector : Option Selector := none
  start : Start := .plain
deriving DecidableEq, Repr

namespace Context

/-- The context after a selector that is of no use has been left out. -/
def withoutSelector (context : Context) : Context :=
  match context.selector with
  | some .emoji => if context.start.isLetter then ⟨none, context.start⟩ else {}
  | _ => ⟨none, context.start⟩

/-- The context that a selector makes. Letters stay visible through it, and joiners through the
selector of emoji. -/
def select (context : Context) (selector : Selector) : Context :=
  if context.start.isLetter ∨ (selector = .emoji ∧ context.start.isJoined) then
    ⟨some selector, context.start⟩
  else ⟨some selector, .plain⟩

/-- The columns of the sign that a character forms with the selector after it, and the context that
it makes. -/
def styled? (c : Char) (context : Context) : Option (Int × Context) :=
  match context.selector with
  | none => none
  | some .emoji =>
    if isStyledBase c then some (if context.start.isJoined then 0 else 2, { start := .emoji })
    else none
  | some .text => if isTextBase c then some (1, {}) else none
  | some .wide => if isQuote c then some (2, {}) else none

end Context

/-- The columns that a character adds to what follows it, and the context it makes. -/
def place (c : Char) (context : Context) : Int × Context :=
  match context.styled? c with
  | some placed => placed
  | none =>
    if c.toNat ≤ 0xA0 then (1, {})
    else match selector? c with
      | some selector => (0, context.withoutSelector.select selector)
      | none =>
        match context.withoutSelector.start.bind? c with
        | some (columns, start) => (columns, { start })
        | none => (charWidth c, { start := .ofChar c })

/-- The columns of a text, and the context that it makes. -/
def measure : List Char → Int × Context
  | [] => (0, {})
  | c :: rest =>
    let (columns, context) := measure rest
    let (added, context) := place c context
    (added + columns, context)

/-- The number of columns of a text. -/
def width (s : List Char) : Nat :=
  (measure s).1.toNat

end NeighborSearch.Text
