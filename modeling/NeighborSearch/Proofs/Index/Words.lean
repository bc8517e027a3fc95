import Mathlib
import NeighborSearch.Index.Layout

/-!
# Words, texts and components as bytes

What the parts of an index say about the bytes they are read from, and the other way round: four
bytes are the bytes of exactly one word, UTF-8 bytes are those of exactly one text, and the bytes
of components give the components back as long as these are finite.
-/

namespace NeighborSearch.Index

/-! ## Words -/

@[simp] theorem length_wordBytes (w : UInt32) : (wordBytes w).length = wordSize := rfl

/-- Different words have different bytes. -/
theorem wordBytes_inj {v w : UInt32} : wordBytes v = wordBytes w ↔ v = w := by
  constructor
  · intro h
    simp only [wordBytes, List.cons.injEq, and_true] at h
    obtain ⟨h0, h1, h2, h3⟩ := h
    rw [← wordOfBytes_wordBytes v, ← wordOfBytes_wordBytes w, h0, h1, h2, h3]
  · rintro rfl
    rfl

/-- The bytes of the word at a position are the four bytes from there on. -/
theorem wordBytes_wordAt {bytes : ByteArray} {i : Nat} (h : i + wordSize ≤ bytes.size) :
    wordBytes (wordAt bytes i) = (bytes.data.toList.drop i).take wordSize := by
  have hsize : bytes.data.toList.length = bytes.size := rfl
  have hbyte (j : Nat) (hj : j < bytes.data.toList.length) :
      byteAt bytes j = bytes.data.toList[j] := by
    have hj' : j < bytes.size := hj
    rw [byteAt, dif_pos hj']
    rfl
  simp only [wordSize] at h
  rw [wordAt, wordBytes_wordOfBytes, hbyte i (by omega), hbyte (i + 1) (by omega),
    hbyte (i + 2) (by omega), hbyte (i + 3) (by omega)]
  apply List.ext_getElem
  · simp only [List.length_cons, List.length_nil, List.length_take, List.length_drop, wordSize]
    omega
  · intro j hj _
    simp only [List.length_cons, List.length_nil] at hj
    obtain rfl | rfl | rfl | rfl : j = 0 ∨ j = 1 ∨ j = 2 ∨ j = 3 := by omega
    all_goals simp [wordSize]

/-- The word at a position is the one whose bytes stand there. -/
theorem wordAt_eq_of_drop {bytes : ByteArray} {i : Nat} {w : UInt32} {rest : List UInt8}
    (h : bytes.data.toList.drop i = wordBytes w ++ rest) : wordAt bytes i = w := by
  have hlength := congrArg List.length h
  have htotal : bytes.data.toList.length = bytes.size := rfl
  simp only [List.length_drop, List.length_append, length_wordBytes] at hlength
  have hsize : i + wordSize ≤ bytes.size := by
    simp only [wordSize] at *
    omega
  rw [← wordBytes_inj, wordBytes_wordAt hsize, h, List.take_left' (length_wordBytes w)]

/-! ## Texts -/

/-- Bytes are read as the text whose bytes they are, and as no other. -/
theorem fromUTF8?_eq_some_iff {raw : ByteArray} {s : String} :
    String.fromUTF8? raw = some s ↔ raw = s.toUTF8 := by
  unfold String.fromUTF8?
  constructor
  · intro h
    split at h
    · cases h
      rfl
    · cases h
  · rintro rfl
    exact dif_pos s.isValidUTF8

/-! ## Components -/

open Float.Model.UnpackedFloat in
/-- A pattern that stands for a finite number is the pattern of that number. All patterns of NaN
stand for one value, which has only one of them. -/
theorem toBits_ofBits {w : UInt32} (h : (Float32.ofBits w).isFinite = true) :
    (Float32.ofBits w).toBits = w := by
  have hpack := @pack_unpack .binary32 w.toBitVec (by decide)
  have hnumber : ¬@isNaNBits .binary32 w.toBitVec = true := by
    intro hnan
    rw [if_pos hnan] at hpack
    simp only [Float32.ofBits, Float32.isFinite, Float32.Model.ofBits, Float32.Model.isFinite,
      Float32.Model.pack, Float32.Model.unpack, hpack, unpack_packedNaN] at h
    cases h
  rw [if_neg hnumber] at hpack
  simp only [Float32.ofBits, Float32.toBits, Float32.Model.ofBits, Float32.Model.pack, hpack]

@[simp] theorem length_encodeValues (row : List Float32) :
    (encodeValues row).length = row.length * wordSize := by
  induction row with
  | nil => rfl
  | cons x row ih =>
    simp only [encodeValues, List.flatMap_cons, List.length_append] at ih ⊢
    rw [ih, length_wordBytes, List.length_cons]
    simp only [wordSize]
    omega

/-- Components are read back from their bit patterns. -/
theorem valuesAt_eq_of_drop {bytes : ByteArray} {i : Nat} {row : List Float32} {rest : List UInt8}
    (h : bytes.data.toList.drop i = encodeValues row ++ rest) :
    valuesAt bytes i row.length = row := by
  induction row generalizing i with
  | nil => rfl
  | cons x row ih =>
    simp only [encodeValues, List.flatMap_cons, List.append_assoc] at h
    have hrest := congrArg (List.drop wordSize) h
    rw [List.drop_drop, List.drop_left' (length_wordBytes _)] at hrest
    rw [List.length_cons, valuesAt, wordAt_eq_of_drop h, Float32.ofBits_toBits]
    exact congrArg _ (ih hrest)

@[simp] theorem length_valuesAt (bytes : ByteArray) (i count : Nat) :
    (valuesAt bytes i count).length = count := by
  induction count generalizing i with
  | zero => rfl
  | succ count ih => rw [valuesAt, List.length_cons, ih]

/-- Finite components have the bit patterns they were read from. -/
theorem encodeValues_valuesAt {bytes : ByteArray} {i count : Nat}
    (hsize : i + count * wordSize ≤ bytes.size)
    (hfinite : (valuesAt bytes i count).all Float32.isFinite = true) :
    encodeValues (valuesAt bytes i count)
      = (bytes.data.toList.drop i).take (count * wordSize) := by
  induction count generalizing i with
  | zero => simp [valuesAt, encodeValues]
  | succ count ih =>
    simp only [wordSize] at hsize ih
    simp only [valuesAt, List.all_cons, Bool.and_eq_true] at hfinite
    obtain ⟨hx, hrow⟩ := hfinite
    have hfront : i + wordSize ≤ bytes.size := by
      simp only [wordSize]
      omega
    have hword := wordBytes_wordAt hfront
    have htail := ih (i := i + 4) (by omega) hrow
    simp only [encodeValues] at htail
    simp only [valuesAt, encodeValues, List.flatMap_cons, toBits_ofBits hx, hword, htail,
      wordSize]
    rw [show (count + 1) * 4 = 4 + count * 4 by omega, List.take_add, List.drop_drop]

end NeighborSearch.Index
