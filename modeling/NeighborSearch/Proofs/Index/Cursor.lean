import NeighborSearch.Proofs.Index.Outcomes
import NeighborSearch.Proofs.Index.Words

/-!
# Reading from a cursor

`Cursor.rest` is what is left of an index at a cursor. Each way of reading is characterised by
what it takes off the front of that list: a read succeeds exactly if the bytes in front are those
of what it returns, and then the cursor stands behind them (`Cursor.Consumes`).
-/

namespace NeighborSearch.Index.Cursor

/-! ## What is left -/

/-- The bytes from the position of a cursor to the end. -/
def rest (c : Cursor) : List UInt8 :=
  c.bytes.data.toList.drop c.offset

/-- The cursor `count` bytes further on. -/
def advance (c : Cursor) (count : Nat) : Cursor :=
  { c with offset := c.offset + count }

/-- Reading from `c` takes exactly the bytes `front` and ends at `c'`. -/
structure Consumes (c : Cursor) (front : List UInt8) (c' : Cursor) : Prop where
  advance_eq : c' = c.advance front.length
  rest_eq : c.rest = front ++ c'.rest

theorem left_eq_length_rest (c : Cursor) : c.left = c.rest.length := by
  rw [left, rest, List.length_drop]
  rfl

theorem rest_advance (c : Cursor) (count : Nat) : (c.advance count).rest = c.rest.drop count := by
  rw [rest, rest, advance, List.drop_drop]

/-- Bytes in front can be taken. -/
theorem consumes_advance {c : Cursor} {front tail : List UInt8} (h : c.rest = front ++ tail) :
    c.Consumes front (c.advance front.length) where
  advance_eq := rfl
  rest_eq := by rw [rest_advance, h, List.drop_left]

namespace Consumes

variable {c c' c'' : Cursor} {front front' : List UInt8}

theorem refl (c : Cursor) : c.Consumes [] c where
  advance_eq := rfl
  rest_eq := rfl

/-- What two reads take off one after the other. -/
theorem trans (h : c.Consumes front c') (h' : c'.Consumes front' c'') :
    c.Consumes (front ++ front') c'' where
  advance_eq := by
    rw [h'.advance_eq, h.advance_eq, List.length_append]
    simp only [advance, Nat.add_assoc]
  rest_eq := by rw [h.rest_eq, h'.rest_eq, List.append_assoc]

/-- Taking bytes one after the other, and the other way round. -/
theorem append_iff :
    c.Consumes (front ++ front') c'' ↔ ∃ c', c.Consumes front c' ∧ c'.Consumes front' c'' := by
  constructor
  · intro h
    have hrest : c.rest = front ++ (front' ++ c''.rest) := by
      rw [h.rest_eq, List.append_assoc]
    refine ⟨c.advance front.length, consumes_advance hrest, ?_, ?_⟩
    · rw [h.advance_eq, List.length_append]
      simp only [advance, Nat.add_assoc]
    · rw [rest_advance, hrest, List.drop_left]
  · rintro ⟨c', h, h'⟩
    exact h.trans h'

theorem nil_iff : c.Consumes [] c' ↔ c' = c := by
  constructor
  · intro h
    exact h.advance_eq
  · rintro rfl
    exact refl _

end Consumes

/-! ## Reading bytes -/

variable {c c' : Cursor} {field : Field} {count : Nat}

/-- The bytes that a read of `count` bytes returns. -/
theorem toList_extract (c : Cursor) (count : Nat) :
    (c.bytes.extract c.offset (c.offset + count)).data.toList = c.rest.take count := by
  rw [ByteArray.data_extract, Array.toList_extract, rest, List.extract_eq_take_drop]
  congr 1
  omega

theorem take_eq_ok_iff {raw : ByteArray} :
    c.take field count = .ok (raw, c')
      ↔ raw.size = count ∧ c.Consumes raw.data.toList c' := by
  rw [take_eq, left_eq_length_rest]
  constructor
  · intro h
    split at h
    · cases h
    case isFalse hle =>
      simp only [Except.ok.injEq, Prod.mk.injEq] at h
      obtain ⟨rfl, rfl⟩ := h
      have hlength : (c.bytes.extract c.offset (c.offset + count)).data.toList.length = count := by
        rw [toList_extract, List.length_take]
        omega
      refine ⟨hlength, ?_, ?_⟩
      · rw [hlength]
        rfl
      · show c.rest = _ ++ (c.advance count).rest
        rw [rest_advance, toList_extract, List.take_append_drop]
  · rintro ⟨rfl, h⟩
    have hlength := congrArg List.length h.rest_eq
    have hsize : raw.data.toList.length = raw.size := rfl
    rw [List.length_append] at hlength
    rw [if_neg (by omega)]
    simp only [Except.ok.injEq, Prod.mk.injEq]
    constructor
    · apply ByteArray.ext
      apply Array.toList_inj.1
      rw [toList_extract, h.rest_eq, List.take_left' hsize]
    · exact h.advance_eq.symm

/-! ## Reading words, texts and components -/

/-- A word is read from its four bytes. -/
theorem word_eq_ok_iff {n : Nat} :
    c.word field = .ok (n, c') ↔ ∃ w : UInt32, w.toNat = n ∧ c.Consumes (wordBytes w) c' := by
  rw [word_eq, bind_eq_ok_iff]
  constructor
  · rintro ⟨⟨raw, c₁⟩, htake, h⟩
    simp only [Except.ok.injEq, Prod.mk.injEq] at h
    obtain ⟨rfl, rfl⟩ := h
    obtain ⟨hsize, hconsumes⟩ := take_eq_ok_iff.1 htake
    refine ⟨wordAt raw 0, rfl, ?_⟩
    rw [wordBytes_wordAt (by omega), List.drop_zero, List.take_of_length_le (Nat.le_of_eq hsize)]
    exact hconsumes
  · rintro ⟨w, rfl, h⟩
    refine ⟨((wordBytes w).toByteArray, c'), take_eq_ok_iff.2 ⟨?_, ?_⟩, ?_⟩
    · rw [List.size_toByteArray, length_wordBytes]
    · rw [List.data_toByteArray]
      exact h
    · have hword : wordAt (wordBytes w).toByteArray 0 = w := by
        refine wordAt_eq_of_drop (?_ : _ = wordBytes w ++ [])
        rw [List.data_toByteArray]
        rfl
      simp only [hword]

/-- A text is read from its UTF-8 bytes. -/
theorem text_eq_ok_iff {s : String} :
    c.text field count = .ok (s, c')
      ↔ s.utf8ByteSize = count ∧ c.Consumes s.toUTF8.data.toList c' := by
  rw [text_eq, bind_eq_ok_iff]
  constructor
  · rintro ⟨⟨raw, c₁⟩, htake, h⟩
    obtain ⟨hsize, hconsumes⟩ := take_eq_ok_iff.1 htake
    dsimp only at h
    split at h
    case h_1 t ht =>
      simp only [Except.ok.injEq, Prod.mk.injEq] at h
      obtain ⟨rfl, rfl⟩ := h
      rw [fromUTF8?_eq_some_iff] at ht
      subst ht
      exact ⟨hsize, hconsumes⟩
    case h_2 => cases h
  · rintro ⟨rfl, h⟩
    refine ⟨(s.toUTF8, c'), take_eq_ok_iff.2 ⟨rfl, h⟩, ?_⟩
    simp only [fromUTF8?_eq_some_iff.2 (rfl : s.toUTF8 = s.toUTF8)]

/-- Components are read from their bit patterns. -/
theorem values_eq_ok {row : List Float32} (h : c.Consumes (encodeValues row) c') :
    c.values field row.length = .ok (row, c') := by
  rw [values_eq, bind_eq_ok_iff]
  refine ⟨((encodeValues row).toByteArray, c'), take_eq_ok_iff.2 ⟨?_, ?_⟩, ?_⟩
  · rw [List.size_toByteArray, length_encodeValues]
  · rw [List.data_toByteArray]
    exact h
  · have hrow : valuesAt (encodeValues row).toByteArray 0 row.length = row := by
      refine valuesAt_eq_of_drop (?_ : _ = encodeValues row ++ [])
      rw [List.data_toByteArray, List.append_nil]
      rfl
    simp only [hrow]

/-- Finite components stand for the bytes they were read from. -/
theorem consumes_of_values {row : List Float32} (h : c.values field count = .ok (row, c'))
    (hfinite : row.all Float32.isFinite = true) :
    row.length = count ∧ c.Consumes (encodeValues row) c' := by
  rw [values_eq] at h
  obtain ⟨⟨raw, c₁⟩, htake, h⟩ := bind_eq_ok_iff.1 h
  simp only [Except.ok.injEq, Prod.mk.injEq] at h
  obtain ⟨rfl, rfl⟩ := h
  obtain ⟨hsize, hconsumes⟩ := take_eq_ok_iff.1 htake
  refine ⟨length_valuesAt raw 0 count, ?_⟩
  rw [encodeValues_valuesAt (by omega) hfinite, List.drop_zero,
    List.take_of_length_le (Nat.le_of_eq hsize)]
  exact hconsumes

end NeighborSearch.Index.Cursor
