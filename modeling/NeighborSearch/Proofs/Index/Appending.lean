import NeighborSearch.Proofs.Index.Reading

/-!
# Bytes after the end

A decoder that stops at the first fault reads the same from bytes and from these bytes with others
after them, until it comes to the end of the shorter ones. `Continues` says this of one read; it is
passed on from each read to the next, over all records, and so to whole indices: only a fault that
says that bytes are missing can become another one.
-/

namespace NeighborSearch.Index

/-! ## Kinds of faults -/

namespace Fault

/-- Whether a fault says that the bytes end too early. -/
def isShortage : Fault → Bool
  | headerMissing | truncated .. => true
  | _ => false

/-- Whether a fault is one of the bytes that are there. -/
def isContent : Fault → Bool
  | wrongMagic | unsupportedVersion _ | zeroDimension | noRecords | unknownMetric _ | notText _
  | wrongDimension .. | notFinite _ => true
  | _ => false

/-- Missing bytes are not wrong ones. -/
theorem isContent_of_isShortage {fault : Fault} (h : fault.isShortage = true) :
    fault.isContent = false := by
  cases fault with
  | headerMissing | truncated => rfl
  | _ => cases h

end Fault

/-! ## Cursors with more bytes behind them -/

namespace Cursor

variable {c c' : Cursor} {tail : ByteArray}

/-- The same position in bytes that others follow. -/
def followedBy (c : Cursor) (tail : ByteArray) : Cursor :=
  { c with bytes := c.bytes ++ tail }

theorem rest_followedBy (h : c.Inside) : (c.followedBy tail).rest = c.rest ++ tail.data.toList := by
  have hsize : c.offset ≤ c.bytes.data.toList.length := h
  rw [rest, rest, followedBy, ByteArray.data_append, Array.toList_append,
    List.drop_append_of_le_length hsize]

theorem left_followedBy (h : c.Inside) : (c.followedBy tail).left = c.left + tail.size := by
  rw [left_eq_length_rest, left_eq_length_rest, rest_followedBy h, List.length_append]
  rfl

/-- What is taken off the front does not depend on what comes after the end. -/
theorem Consumes.followedBy {front : List UInt8} (h : c.Consumes front c') (hc : c.Inside)
    (hc' : c'.Inside) : (c.followedBy tail).Consumes front (c'.followedBy tail) where
  advance_eq := by
    rw [h.advance_eq]
    rfl
  rest_eq := by rw [rest_followedBy hc, rest_followedBy hc', h.rest_eq, List.append_assoc]

end Cursor

/-! ## Reads that go on in the same way -/

section

variable {α β : Type} {tail : ByteArray}

/-- What becomes of a read when a tail follows the bytes. A result stays as it is, with its cursor
at the same position. A fault stays as it is, unless bytes were missing. -/
def Continues (tail : ByteArray) (x x' : Except Fault (α × Cursor)) : Prop :=
  match x with
  | .ok (a, c) => c.Inside ∧ x' = .ok (a, c.followedBy tail)
  | .error fault => fault.isShortage = true ∨ (fault.isContent = true ∧ x' = .error fault)

theorem continues_ok {c : Cursor} (a : α) (h : c.Inside) :
    Continues tail (.ok (a, c)) (.ok (a, c.followedBy tail)) :=
  ⟨h, rfl⟩

theorem continues_error {fault : Fault} (h : fault.isContent = true) :
    Continues tail (.error fault : Except Fault (α × Cursor)) (.error fault) :=
  .inr ⟨h, rfl⟩

/-- One read after another. -/
theorem Continues.bind {x x' : Except Fault (α × Cursor)}
    {f f' : α × Cursor → Except Fault (β × Cursor)} (h : Continues tail x x')
    (hf : ∀ a c, c.Inside → Continues tail (f (a, c)) (f' (a, c.followedBy tail))) :
    Continues tail (x >>= f) (x' >>= f') := by
  cases x with
  | error fault =>
    obtain hshort | ⟨hcontent, rfl⟩ := h
    · exact .inl hshort
    · exact continues_error hcontent
  | ok result =>
    obtain ⟨a, c⟩ := result
    obtain ⟨hinside, rfl⟩ := h
    exact hf a c hinside

/-- A check before a read. -/
theorem Continues.check_bind {x : Except Fault Unit} {y y' : Except Fault (β × Cursor)}
    (hx : ∀ fault, x = .error fault → fault.isContent = true) (h : Continues tail y y') :
    Continues tail (x >>= fun _ => y) (x >>= fun _ => y') := by
  cases x with
  | error fault => exact continues_error (hx fault rfl)
  | ok _ => exact h

end

/-! ## The parts of an index -/

section

variable {tail : ByteArray} {field : Field} {count position : Nat} {c : Cursor}

namespace Cursor

theorem take_continues (h : c.Inside) :
    Continues tail (c.take field count) ((c.followedBy tail).take field count) := by
  cases hread : c.take field count with
  | error fault =>
    -- the only fault of this read is that bytes are missing
    rw [take_eq] at hread
    split at hread
    · cases hread
      exact .inl rfl
    · cases hread
  | ok result =>
    obtain ⟨raw, c'⟩ := result
    have hinside : c'.Inside := h.of_take hread
    obtain ⟨hsize, hconsumes⟩ := take_eq_ok_iff.1 hread
    exact ⟨hinside, take_eq_ok_iff.2 ⟨hsize, hconsumes.followedBy h hinside⟩⟩

theorem word_continues (h : c.Inside) :
    Continues tail (c.word field) ((c.followedBy tail).word field) :=
  (take_continues h).bind fun _ _ => continues_ok _

theorem text_continues (h : c.Inside) :
    Continues tail (c.text field count) ((c.followedBy tail).text field count) := by
  refine (take_continues h).bind fun raw c' hinside => ?_
  dsimp only
  cases String.fromUTF8? raw with
  | none => exact continues_error rfl
  | some s => exact continues_ok s hinside

theorem values_continues (h : c.Inside) :
    Continues tail (c.values field count) ((c.followedBy tail).values field count) :=
  (take_continues h).bind fun _ _ => continues_ok _

end Cursor

variable {dimension : Dimension}

theorem isContent_of_checkDimension {found : Nat} (fault : Fault)
    (h : checkDimension dimension position found = .error fault) : fault.isContent = true := by
  unfold checkDimension at h
  split at h
  · cases h
  · cases h
    rfl

theorem isContent_of_checkFinite {row : List Float32} (fault : Fault)
    (h : checkFinite position row = .error fault) : fault.isContent = true := by
  unfold checkFinite at h
  split at h
  · cases h
  · cases h
    rfl

theorem readRecord_continues (h : c.Inside) :
    Continues tail (readRecord dimension position c)
      (readRecord dimension position (c.followedBy tail)) := by
  rw [readRecord_eq, readRecord_eq]
  refine (Cursor.word_continues h).bind fun length c₁ h₁ => ?_
  refine (Cursor.text_continues h₁).bind fun label c₂ h₂ => ?_
  refine (Cursor.word_continues h₂).bind fun found c₃ h₃ => ?_
  refine Continues.check_bind isContent_of_checkDimension ?_
  refine (Cursor.values_continues h₃).bind fun row c₄ h₄ => ?_
  exact Continues.check_bind isContent_of_checkFinite (continues_ok _ h₄)

theorem readRecords_continues (rows : Rows) (h : c.Inside) :
    Continues tail (readRecords dimension count position rows c)
      (readRecords dimension count position rows (c.followedBy tail)) := by
  induction count generalizing position rows c with
  | zero => exact continues_ok rows h
  | succ count ih => exact (readRecord_continues h).bind fun record c' h' => ih _ h'

end

/-! ## Whole indices -/

section

variable {bytes tail : ByteArray}

theorem wordAt_append {i : Nat} (h : i + wordSize ≤ bytes.size) :
    wordAt (bytes ++ tail) i = wordAt bytes i := by
  have hi : i ≤ bytes.data.toList.length := Nat.le_trans (Nat.le_add_right i wordSize) h
  apply wordAt_eq_of_drop
  rw [ByteArray.data_append, Array.toList_append, List.drop_append_of_le_length hi,
    wordBytes_wordAt h, ← List.append_assoc, List.take_append_drop]

/-- A header that is all there is read in the same way. -/
theorem readHeader_append (h : headerSize ≤ bytes.size) :
    readHeader (bytes ++ tail) = readHeader bytes := by
  have hmagic : ((bytes ++ tail).extract 0 wordSize).data.toList
      = (bytes.extract 0 wordSize).data.toList := by
    have hsize : wordSize - 0 ≤ bytes.data.toList.length := Nat.le_trans (by decide) h
    simp only [ByteArray.data_extract, ByteArray.data_append, Array.toList_extract,
      Array.toList_append, List.extract_eq_take_drop, List.drop_zero]
    rw [List.take_append_of_le_length hsize]
  have hword (i : Nat) (hi : i + wordSize ≤ headerSize) :
      wordAt (bytes ++ tail) i = wordAt bytes i :=
    wordAt_append (Nat.le_trans hi h)
  have hsize : ¬(bytes ++ tail).size < headerSize := by
    rw [ByteArray.size_append]
    omega
  rw [readHeader_eq, readHeader_eq, hmagic, hword 4 (by decide), hword 8 (by decide), hword 12 (by decide),
    hword 16 (by decide), hword 20 (by decide), if_neg hsize, if_neg (Nat.not_lt.2 h)]

theorem isContent_of_readHeader {fault : Fault} (hsize : headerSize ≤ bytes.size)
    (h : readHeader bytes = .error fault) : fault.isContent = true := by
  rw [readHeader_eq, if_neg (Nat.not_lt.2 hsize)] at h
  -- the words of the header in turn, each with its own fault
  split at h
  · cases h
    rfl
  split at h
  · cases h
    rfl
  split at h
  · split at h
    · cases h
      rfl
    split at h
    · cases h
      rfl
    · cases h
  · cases h
    rfl

/-- Reads an index and gives the cursor behind its last record. -/
def readStore (bytes : ByteArray) : Except Fault (Store × Cursor) := do
  let header ← readHeader bytes
  let (userInfo, c) ← Cursor.text ⟨bytes, headerSize⟩ .userInfo header.userInfoLength
  let (rows, c) ← readRecords header.dimension header.count 0 (Rows.ofList []) c
  .ok (rows.toStore header.dimension header.metric userInfo, c)

/-- Once all records are read, nothing may be left. -/
theorem decode_eq_readStore (bytes : ByteArray) :
    decode bytes = (do
      let (s, c) ← readStore bytes
      if c.left = 0 then .ok s else .error (.trailingBytes c.left)) := by
  rw [decode_eq]
  unfold readStore
  cases readHeader bytes with
  | error fault => rfl
  | ok header =>
    rw [ok_bind, ok_bind]
    cases Cursor.text ⟨bytes, headerSize⟩ .userInfo header.userInfoLength with
    | error fault => rfl
    | ok info =>
      obtain ⟨userInfo, c⟩ := info
      rw [ok_bind, ok_bind]
      dsimp only
      rw [reserve_eq_ofList]
      cases readRecords header.dimension header.count 0 (Rows.ofList []) c <;> rfl

theorem readStore_continues (bytes tail : ByteArray) :
    Continues tail (readStore bytes) (readStore (bytes ++ tail)) := by
  unfold readStore
  by_cases hsize : headerSize ≤ bytes.size
  · rw [readHeader_append hsize]
    cases hheader : readHeader bytes with
    | error fault => exact continues_error (isContent_of_readHeader hsize hheader)
    | ok header =>
      have hinside : (Cursor.mk bytes headerSize).Inside := hsize
      refine (Cursor.text_continues hinside).bind fun userInfo c₁ h₁ => ?_
      refine (readRecords_continues _ h₁).bind fun rows c₂ h₂ => ?_
      exact continues_ok _ h₂
  · have hmissing : readHeader bytes = .error .headerMissing := if_pos (Nat.lt_of_not_le hsize)
    rw [hmissing]
    exact .inl rfl

/-- What becomes of an index when a tail follows its bytes. An index that was read fails by the
number of bytes in the tail, and one with bytes left over fails by that many more. A fault of the
bytes that are there stays the same. Only bytes that were missing can lead to something else. -/
theorem ofBytes_append (bytes tail : ByteArray) (htail : 0 < tail.size) :
    match decode bytes with
    | .ok _ =>
      Store.ofBytes (bytes ++ tail)
        = .error (.invalidIndex
            (toString tail.size ++ " unexpected trailing bytes after the last record"))
    | .error (.trailingBytes count) =>
      Store.ofBytes (bytes ++ tail)
        = .error (.invalidIndex
            (toString (count + tail.size) ++ " unexpected trailing bytes after the last record"))
    | .error fault =>
      (fault.isShortage = true ∨ fault.isContent = true)
        ∧ (fault.isContent = true →
            Store.ofBytes bytes = .error fault.toError
              ∧ Store.ofBytes (bytes ++ tail) = .error fault.toError) := by
  have hcontinues := readStore_continues bytes tail
  unfold Store.ofBytes
  rw [decode_eq_readStore, decode_eq_readStore]
  cases hread : readStore bytes with
  | error fault =>
    rw [hread] at hcontinues
    rw [error_bind]
    have hkinds : fault.isShortage = true ∨ fault.isContent = true :=
      hcontinues.imp_right And.left
    have hsame : fault.isContent = true → readStore (bytes ++ tail) = .error fault := by
      intro hcontent
      obtain hshort | ⟨-, hsame⟩ := hcontinues
      · rw [Fault.isContent_of_isShortage hshort] at hcontent
        cases hcontent
      · exact hsame
    cases fault with
    | trailingBytes count => obtain h | h := hkinds <;> cases h
    | _ =>
      refine ⟨hkinds, fun hcontent => ⟨rfl, ?_⟩⟩
      rw [hsame hcontent]
      rfl
  | ok result =>
    obtain ⟨s, c⟩ := result
    rw [hread] at hcontinues
    obtain ⟨hinside, hsame⟩ := hcontinues
    have hleft : (c.followedBy tail).left = c.left + tail.size :=
      Cursor.left_followedBy hinside
    rw [hsame, ok_bind, ok_bind]
    dsimp only
    rw [if_neg (show ¬(c.followedBy tail).left = 0 by omega), hleft]
    by_cases hend : c.left = 0
    · rw [if_pos hend, hend, Nat.zero_add]
      rfl
    · rw [if_neg hend]
      rfl

/-- An index of one record. -/
def oneRecord : ByteArray :=
  (encode 1 Metric.l2.id "é" [("a", [1])]).toByteArray

/-- An index of one record with two bytes too many. -/
theorem ofBytes_oneRecord_append :
    0 < (ByteArray.mk #[0, 255]).size
    ∧ (decode oneRecord).toOption.isSome = true
    ∧ Store.ofBytes (oneRecord ++ ByteArray.mk #[0, 255])
      = .error (.invalidIndex "2 unexpected trailing bytes after the last record") := by
  have htail : 0 < (ByteArray.mk #[0, 255]).size := by decide
  have h := ofBytes_append oneRecord (ByteArray.mk #[0, 255]) htail
  have hread : (decode oneRecord).toOption.isSome = true := by decide +kernel
  refine ⟨htail, hread, ?_⟩
  cases hdecode : decode oneRecord with
  | error fault =>
    rw [hdecode] at hread
    cases hread
  | ok s =>
    rw [hdecode] at h
    exact h

end

end NeighborSearch.Index
