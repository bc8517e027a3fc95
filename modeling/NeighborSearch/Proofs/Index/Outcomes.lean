import NeighborSearch.Index.Decode
import NeighborSearch.Proofs.Outcome

/-!
# The outcome of reading, step by step

Where nothing but the outcome of a run is known, the reader of an index is a sequence of checks and
of values that are there at once. There is one equation for each of its steps, in which no access is
left; the words of the header are those of the whole bytes.
-/

namespace NeighborSearch.Index

/-! ## Accesses -/

theorem byteAt_extract {bytes : ByteArray} {i j : Nat} (hj : j < wordSize) :
    byteAt (bytes.extract i (i + wordSize)) j = byteAt bytes (i + j) := by
  simp only [wordSize] at *
  unfold byteAt
  by_cases hsize : i + j < bytes.size
  · have hsize' : j < (bytes.extract i (i + 4)).size := by
      rw [ByteArray.size_extract]
      omega
    rw [dif_pos hsize, dif_pos hsize', ByteArray.getElem_extract]
  · have hsize' : ¬j < (bytes.extract i (i + 4)).size := by
      rw [ByteArray.size_extract]
      omega
    rw [dif_neg hsize, dif_neg hsize']

/-- The word at a position is the first one of the bytes from there on. -/
theorem wordAt_extract (bytes : ByteArray) (i : Nat) :
    wordAt (bytes.extract i (i + wordSize)) 0 = wordAt bytes i := by
  unfold wordAt
  rw [byteAt_extract (by decide), byteAt_extract (by decide), byteAt_extract (by decide),
    byteAt_extract (by decide)]
  rfl

section Steps

variable {α : Type}

theorem pure_eq_ok (a : α) : (pure a : Except Fault α) = .ok a := rfl

theorem refuse_eq_error (fault : Fault) :
    (Reading.refuse fault : Except Fault α) = .error fault := rfl

theorem slice_eq_ok (bytes : ByteArray) (offset count : Nat) :
    (Access.slice bytes offset count : Except Fault ByteArray)
      = .ok (bytes.extract offset (offset + count)) := rfl

theorem word_eq_ok (raw : ByteArray) :
    (Access.word raw : Except Fault UInt32) = .ok (wordAt raw 0) := rfl

end Steps

/-! ## Fields -/

namespace Cursor

variable (c : Cursor) (field : Field) (count : Nat)

theorem take_eq :
    c.take field count
      = if c.left < count then .error (.truncated field c.offset count c.left)
        else .ok (c.bytes.extract c.offset (c.offset + count),
          { c with offset := c.offset + count }) :=
  rfl

theorem word_eq :
    c.word field = (do
      let (raw, c) ← c.take field wordSize
      .ok ((wordAt raw 0).toNat, c)) :=
  rfl

theorem text_eq :
    c.text field count = (do
      let (raw, c) ← c.take field count
      match String.fromUTF8? raw with
      | some s => .ok (s, c)
      | none => .error (.notText field)) :=
  rfl

theorem values_eq :
    c.values field count = (do
      let (raw, c) ← c.take field (count * wordSize)
      .ok (valuesAt raw 0 count, c)) :=
  rfl

end Cursor

/-! ## The header -/

theorem headerWord_eq (bytes : ByteArray) (i : Nat) :
    (Reading.headerWord bytes i : Except Fault UInt32) = .ok (wordAt bytes i) := by
  unfold Reading.headerWord
  rw [slice_eq_ok, ok_bind, word_eq_ok, wordAt_extract]

theorem readHeader_eq (bytes : ByteArray) :
    readHeader bytes
      = if bytes.size < headerSize then .error .headerMissing
        else if (bytes.extract 0 wordSize).data.toList ≠ magic then .error .wrongMagic
        else if wordAt bytes 4 ≠ formatVersion then
          .error (.unsupportedVersion (wordAt bytes 4))
        else if h : 0 < (wordAt bytes 8).toNat then
          if wordAt bytes 12 = 0 then .error .noRecords
          else match Metric.ofId? (wordAt bytes 16) with
            | none => .error (.unknownMetric (wordAt bytes 16))
            | some metric =>
              .ok ⟨⟨(wordAt bytes 8).toNat, h⟩, (wordAt bytes 12).toNat, metric,
                (wordAt bytes 20).toNat⟩
        else .error .zeroDimension := by
  unfold readHeader Reading.header
  -- one check after the other, each with the access that it needs
  by_cases hsize : bytes.size < headerSize
  · rw [if_pos hsize, if_pos hsize, refuse_eq_error]
  rw [if_neg hsize, if_neg hsize, slice_eq_ok, ok_bind, Nat.zero_add]
  by_cases hmagic : (bytes.extract 0 wordSize).data.toList ≠ magic
  · rw [if_pos hmagic, if_pos hmagic, refuse_eq_error]
  rw [if_neg hmagic, if_neg hmagic, headerWord_eq, ok_bind]
  by_cases hversion : wordAt bytes 4 ≠ formatVersion
  · rw [if_pos hversion, if_pos hversion, refuse_eq_error]
  rw [if_neg hversion, if_neg hversion, headerWord_eq, ok_bind]
  by_cases hpos : 0 < (wordAt bytes 8).toNat
  · rw [dif_pos hpos, dif_pos hpos, headerWord_eq, ok_bind]
    by_cases hcount : wordAt bytes 12 = 0
    · rw [if_pos hcount, if_pos hcount, refuse_eq_error]
    rw [if_neg hcount, if_neg hcount, headerWord_eq, ok_bind]
    cases Metric.ofId? (wordAt bytes 16) with
    | none => exact refuse_eq_error _
    | some metric =>
      dsimp only
      rw [headerWord_eq, ok_bind, pure_eq_ok]
  · rw [dif_neg hpos, dif_neg hpos, refuse_eq_error]

/-! ## Records and whole indices -/

section Records

variable (dimension : Dimension) (count position : Nat) (rows : Rows) (c : Cursor)

theorem readRecord_eq :
    readRecord dimension position c = (do
      let (length, c) ← c.word .labelLength
      let (label, c) ← c.text .label length
      let (found, c) ← c.word .recordDimension
      checkDimension dimension position found
      let (row, c) ← c.values .embedding dimension.toNat
      checkFinite position row
      .ok ((label, row), c)) :=
  rfl

@[simp] theorem readRecords_zero : readRecords dimension 0 position rows c = .ok (rows, c) :=
  rfl

theorem readRecords_succ :
    readRecords dimension (count + 1) position rows c = (do
      let ((label, row), c) ← readRecord dimension position c
      readRecords dimension count (position + 1) (rows.push label row) c) :=
  rfl

end Records

theorem decode_eq (bytes : ByteArray) :
    decode bytes = (do
      let header ← readHeader bytes
      let (userInfo, c) ← Cursor.text ⟨bytes, headerSize⟩ .userInfo header.userInfoLength
      let (rows, c) ← readRecords header.dimension header.count 0
        (Rows.reserve (plausibleCount header c.left) header.dimension.toNat) c
      if c.left = 0 then .ok (rows.toStore header.dimension header.metric userInfo)
      else .error (.trailingBytes c.left)) :=
  rfl

end NeighborSearch.Index
