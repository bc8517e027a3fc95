import NeighborSearch.Proofs.Index.Appending

/-!
# Indices that end too early

Behind its header an index is a sequence of parts, each of which is read in one piece. An index that
is cut off is read up to the part that is not all there, and this part is reported with its place.

* `Store.parts` lists the parts of an index, and `missing?` says which of them is the first that
  is not all there.
* `Reads` says that a reader takes given parts and reports the first one that is missing; readers
  one after the other take the parts of both.
-/

namespace NeighborSearch.Index

/-! ## Parts -/

/-- A part of an index: what it is, and its bytes. -/
structure Part where
  field : Field
  bytes : List UInt8

/-- The bytes of parts one after the other. -/
def joined (parts : List Part) : List UInt8 :=
  parts.flatMap Part.bytes

/-- The parts of a record. -/
def recordParts (record : String × List Float32) : List Part :=
  [⟨.labelLength, wordBytes (.ofNat record.1.utf8ByteSize)⟩,
    ⟨.label, record.1.toUTF8.data.toList⟩,
    ⟨.recordDimension, wordBytes (.ofNat record.2.length)⟩,
    ⟨.embedding, encodeValues record.2⟩]

/-- The parts of an index behind its header. -/
def Store.parts (s : Store) : List Part :=
  ⟨.userInfo, s.userInfo.toUTF8.data.toList⟩
    :: s.records.flatMap fun record => recordParts (record.metadata, record.embedding)

/-- The fault of the first of some parts that is not all there, where the parts start at an offset
and the bytes end `left` bytes later. -/
def missing? (offset left : Nat) : List Part → Option Fault
  | [] => none
  | part :: rest =>
    if left < part.bytes.length then
      some (.truncated part.field offset part.bytes.length left)
    else missing? (offset + part.bytes.length) (left - part.bytes.length) rest

section Parts

variable {offset left : Nat} {part : Part} {parts others : List Part}

theorem joined_cons : joined (part :: parts) = part.bytes ++ joined parts :=
  List.flatMap_cons

theorem joined_append : joined (parts ++ others) = joined parts ++ joined others :=
  List.flatMap_append

theorem joined_recordParts (record : String × List Float32) :
    joined (recordParts record) = encodeRecord record := by
  simp [joined, recordParts, encodeRecord, encodeText]

theorem joined_flatMap_recordParts (records : List (String × List Float32)) :
    joined (records.flatMap recordParts) = records.flatMap encodeRecord := by
  rw [joined, List.flatMap_assoc]
  exact congrArg (records.flatMap ·) (funext joined_recordParts)

/-- Nothing is missing exactly if there are as many bytes as the parts have. -/
theorem missing?_eq_none_iff : missing? offset left parts = none ↔ (joined parts).length ≤ left := by
  induction parts generalizing offset left with
  | nil => simp [missing?, joined]
  | cons part parts ih =>
    rw [missing?, joined_cons, List.length_append]
    split
    · simp only [reduceCtorEq, false_iff]
      omega
    · rw [ih]
      omega

/-- If something is missing of the parts at the front, that is reported; else what is missing of
those that follow. -/
theorem missing?_append :
    missing? offset left (parts ++ others)
      = (missing? offset left parts).or
          (missing? (offset + (joined parts).length) (left - (joined parts).length) others) := by
  induction parts generalizing offset left with
  | nil => rfl
  | cons part parts ih =>
    rw [List.cons_append, missing?, missing?, joined_cons, List.length_append]
    split
    · rfl
    · rw [ih, Nat.add_assoc, Nat.sub_sub]

/-- What is reported is the one part in which the bytes end. -/
theorem exists_of_missing? {fault : Fault} (h : missing? offset left parts = some fault) :
    ∃ before part after, parts = before ++ part :: after
      ∧ (joined before).length ≤ left
      ∧ left < (joined before).length + part.bytes.length
      ∧ fault = .truncated part.field (offset + (joined before).length) part.bytes.length
          (left - (joined before).length) := by
  induction parts generalizing offset left with
  | nil => cases h
  | cons part parts ih =>
    rw [missing?] at h
    split at h
    case isTrue hleft =>
      cases h
      exact ⟨[], part, parts, rfl, Nat.zero_le _, by rwa [joined, List.flatMap_nil, List.length_nil,
        Nat.zero_add], rfl⟩
    case isFalse hleft =>
      obtain ⟨before, part', after, rfl, hbefore, hpart, rfl⟩ := ih h
      refine ⟨part :: before, part', after, rfl, ?_, ?_, ?_⟩
      · rw [joined_cons, List.length_append]
        omega
      · rw [joined_cons, List.length_append]
        omega
      · rw [joined_cons, List.length_append, Nat.add_assoc, Nat.sub_sub]

end Parts

/-! ## Readers of parts -/

section Reads

variable {α β : Type} {parts others : List Part}

/-- A reader gives `a` for some parts, wherever they stand and whatever follows them, and reports the
first of them that is not all there. -/
def Reads (read : Cursor → Except Fault (α × Cursor)) (parts : List Part) (a : α) : Prop :=
  ∀ c lost more, c.rest ++ lost = joined parts ++ more →
    read c = match missing? c.offset c.left parts with
      | some fault => .error fault
      | none => .ok (a, c.advance (joined parts).length)

/-- One reader after another. -/
theorem Reads.bind {read : Cursor → Except Fault (α × Cursor)} {a : α}
    {next : α × Cursor → Except Fault (β × Cursor)} {b : β} (h : Reads read parts a)
    (hnext : Reads (fun c => next (a, c)) others b) :
    Reads (fun c => read c >>= next) (parts ++ others) b := by
  intro c lost more hrest
  rw [joined_append, List.append_assoc] at hrest
  show read c >>= next = _
  rw [h c lost _ hrest, missing?_append]
  cases hmissing : missing? c.offset c.left parts with
  | some fault => rfl
  | none =>
    rw [missing?_eq_none_iff, Cursor.left_eq_length_rest] at hmissing
    have hoffset : (c.advance (joined parts).length).offset = c.offset + (joined parts).length := rfl
    have hleft : (c.advance (joined parts).length).left = c.left - (joined parts).length := by
      rw [Cursor.left_eq_length_rest, Cursor.left_eq_length_rest, Cursor.rest_advance,
        List.length_drop]
    have hbehind : (c.advance (joined parts).length).rest ++ lost = joined others ++ more := by
      have hdrop := congrArg (List.drop (joined parts).length) hrest
      rwa [List.drop_append_of_le_length hmissing, List.drop_left, ← Cursor.rest_advance] at hdrop
    have hread := hnext _ lost more hbehind
    rw [hoffset, hleft] at hread
    rw [ok_bind, Option.none_or]
    refine hread.trans ?_
    cases missing? (c.offset + (joined parts).length) (c.left - (joined parts).length) others with
    | some fault => rfl
    | none =>
      rw [joined_append, List.length_append]
      simp only [Cursor.advance, Nat.add_assoc]

/-- A reader that reads nothing more. -/
theorem reads_ok (a : α) : Reads (fun c => .ok (a, c)) [] a :=
  fun _ _ _ _ => rfl

/-- A check that is passed does not count. -/
theorem Reads.check_bind {x : Except Fault Unit} {read : Cursor → Except Fault (α × Cursor)} {a : α}
    (hx : x = .ok ()) (h : Reads read parts a) : Reads (fun c => x >>= fun _ => read c) parts a := by
  subst hx
  exact h

end Reads

section Fields

variable {field : Field}

/-- A piece of bytes is read if it is all there. -/
theorem reads_of_take {α : Type} {field : Field} {bytes : List UInt8}
    {read : Cursor → Except Fault (α × Cursor)} {a : α}
    (hmissing : ∀ c, c.left < bytes.length →
      read c = .error (.truncated field c.offset bytes.length c.left))
    (h : ∀ c c', c.Consumes bytes c' → read c = .ok (a, c')) : Reads read [⟨field, bytes⟩] a := by
  intro c lost more hrest
  have hjoined : joined [⟨field, bytes⟩] = bytes := by simp [joined]
  rw [hjoined] at hrest ⊢
  rw [missing?]
  dsimp only
  by_cases hleft : c.left < bytes.length
  · rw [if_pos hleft]
    exact hmissing c hleft
  · rw [if_neg hleft]
    have hfront : c.rest = bytes ++ c.rest.drop bytes.length := by
      rw [Cursor.left_eq_length_rest] at hleft
      have htake := congrArg (List.take bytes.length) hrest
      rw [List.take_append_of_le_length (Nat.le_of_not_lt hleft), List.take_left] at htake
      conv_lhs => rw [← List.take_append_drop bytes.length c.rest, htake]
    exact h c _ (Cursor.consumes_advance hfront)

theorem reads_word {n : Nat} (hn : n < UInt32.size) :
    Reads (Cursor.word · field) [⟨field, wordBytes (.ofNat n)⟩] n := by
  refine reads_of_take (fun c hleft => ?_) fun c c' h => word_of_length hn h
  have htake : c.take field wordSize = .error (.truncated field c.offset wordSize c.left) :=
    if_pos hleft
  rw [Cursor.word_eq, htake]
  rfl

theorem reads_text (s : String) :
    Reads (Cursor.text · field s.utf8ByteSize) [⟨field, s.toUTF8.data.toList⟩] s := by
  refine reads_of_take (fun c hleft => ?_) fun c c' h => Cursor.text_eq_ok_iff.2 ⟨rfl, h⟩
  have htake : c.take field s.utf8ByteSize
      = .error (.truncated field c.offset s.utf8ByteSize c.left) := if_pos hleft
  rw [Cursor.text_eq, htake]
  rfl

theorem reads_values (row : List Float32) :
    Reads (Cursor.values · field row.length) [⟨field, encodeValues row⟩] row := by
  refine reads_of_take (fun c hleft => ?_) fun c c' h => Cursor.values_eq_ok h
  rw [length_encodeValues] at hleft ⊢
  have htake : c.take field (row.length * wordSize)
      = .error (.truncated field c.offset (row.length * wordSize) c.left) := if_pos hleft
  rw [Cursor.values_eq, htake]
  rfl

end Fields

/-! ## Records that are cut off -/

section Records

variable {dimension : Dimension} {position : Nat} {record : String × List Float32}
variable {records : List (String × List Float32)}

/-- A record with nothing wrong is read part by part. -/
theorem reads_readRecord (hfits : RecordFits record)
    (hsound : recordFault? dimension position record.2 = none) :
    Reads (readRecord dimension position) (recordParts record) record := by
  obtain ⟨label, row⟩ := record
  obtain ⟨hwidth, hfinite⟩ := recordFault?_eq_none_iff.1 hsound
  dsimp only at hwidth hfinite
  refine (reads_word hfits.label).bind ?_
  refine (reads_text label).bind ?_
  refine (reads_word hfits.row).bind ?_
  refine Reads.check_bind (checkDimension_eq_ok_iff.2 hwidth) ?_
  rw [← hwidth]
  refine (reads_values row).bind ?_
  exact Reads.check_bind (checkFinite_eq_ok_iff.2 hfinite) (reads_ok (label, row))

/-- So are records one after the other. -/
theorem reads_readRecords (hfits : ∀ record ∈ records, RecordFits record)
    (hsound : firstFault? dimension position records = none)
    (seen : List (String × List Float32)) :
    Reads (readRecords dimension records.length position (Rows.ofList seen))
      (records.flatMap recordParts) (Rows.ofList (seen ++ records)) := by
  induction records generalizing position seen with
  | nil =>
    rw [List.append_nil]
    exact reads_ok _
  | cons record records ih =>
    obtain ⟨hrecord, hrecords⟩ := List.forall_mem_cons.1 hfits
    rw [firstFault?_cons, Option.or_eq_none_iff] at hsound
    have hrest := ih hrecords hsound.2 (seen ++ [record])
    rw [← push_ofList, List.append_assoc] at hrest
    exact (reads_readRecord hrecord hsound.1).bind hrest

end Records

/-! ## Indices that are cut off -/

section

variable {bytes : ByteArray} {s : Store} {count : Nat} {records : List (String × List Float32)}

/-- The parts of a store that lists some records. -/
theorem parts_eq (hrecords : s.records = records.map fun record => ⟨record.1, record.2⟩) :
    s.parts = [⟨.userInfo, s.userInfo.toUTF8.data.toList⟩] ++ records.flatMap recordParts := by
  rw [Store.parts, hrecords, List.flatMap_map]
  rfl

/-- What follows the header is read part by part. -/
theorem reads_parts (hs : s = (Rows.ofList records).toStore s.dimension s.metric s.userInfo)
    (hrecords : s.records = records.map fun record => ⟨record.1, record.2⟩)
    (hfits : Fits s.userInfo records) (hsound : firstFault? s.dimension 0 records = none) :
    Reads (fun c => do
        let (userInfo, c) ← c.text .userInfo s.userInfo.utf8ByteSize
        let (rows, c) ← readRecords s.dimension records.length 0 (Rows.ofList []) c
        .ok (rows.toStore s.dimension s.metric userInfo, c)) s.parts s := by
  have hstore : (Rows.ofList ([] ++ records)).toStore s.dimension s.metric s.userInfo = s := hs.symm
  rw [parts_eq hrecords, ← List.append_nil (records.flatMap recordParts)]
  refine (reads_text s.userInfo).bind ?_
  refine (reads_readRecords hfits.records hsound []).bind ?_
  dsimp only
  rw [hstore]
  exact reads_ok s

/-- The parts of an index that was read are what follows its header. -/
theorem drop_headerSize_of_decode (h : decode bytes = .ok s) :
    bytes.data.toList.drop headerSize = joined s.parts := by
  obtain ⟨records, -, -, -, -, -, hrecords, hbytes⟩ := exists_of_decode h
  rw [hbytes, encode_eq, List.drop_left' length_encodeHeader, parts_eq hrecords, joined_append,
    joined_flatMap_recordParts]
  simp [joined]

theorem size_extract_of_lt (hcount : count < bytes.size) : (bytes.extract 0 count).size = count := by
  rw [ByteArray.size_extract]
  omega

theorem extract_append_extract_of_lt (hcount : count < bytes.size) :
    bytes.extract 0 count ++ bytes.extract count bytes.size = bytes := by
  rw [ByteArray.extract_append_extract, Nat.zero_min, Nat.max_eq_right (Nat.le_of_lt hcount),
    ByteArray.extract_zero_size]

/-- Behind the header, an index that is cut off and the bytes that it lacks are the parts of the
whole index. -/
theorem rest_extract (h : decode bytes = .ok s) (hheader : headerSize ≤ count)
    (hcount : count < bytes.size) :
    (Cursor.mk (bytes.extract 0 count) headerSize).rest
      ++ (bytes.extract count bytes.size).data.toList = joined s.parts := by
  have hle : headerSize ≤ (bytes.extract 0 count).data.toList.length := by
    show headerSize ≤ (bytes.extract 0 count).size
    rwa [size_extract_of_lt hcount]
  rw [Cursor.rest, ← List.drop_append_of_le_length hle, ← Array.toList_append,
    ← ByteArray.data_append, extract_append_extract_of_lt hcount, drop_headerSize_of_decode h]

/-- An index that is cut off behind its header is read up to what is missing. -/
theorem readStore_extract (h : decode bytes = .ok s) (hheader : headerSize ≤ count)
    (hcount : count < bytes.size) :
    ∃ fault, missing? headerSize (count - headerSize) s.parts = some fault
      ∧ readStore (bytes.extract 0 count) = .error fault := by
  obtain ⟨records, hne, hnone, hfits, hdimension, hs, hrecords, hbytes⟩ := exists_of_decode h
  have hsize := size_extract_of_lt hcount
  -- the header is all there, so it is the one of the whole index
  have hread := readHeader_of_encode hfits hdimension hne hbytes
  rw [← extract_append_extract_of_lt hcount, readHeader_append (by omega)] at hread
  have hrest := rest_extract h hheader hcount
  rw [← List.append_nil (joined s.parts)] at hrest
  have hparts := reads_parts hs hrecords hfits hnone _ _ _ hrest
  have hleft : (Cursor.mk (bytes.extract 0 count) headerSize).left = count - headerSize := by
    rw [Cursor.left, hsize]
  rw [hleft] at hparts
  rw [readStore, hread, ok_bind]
  dsimp only at hparts ⊢
  rw [hparts]
  cases hmissing : missing? headerSize (count - headerSize) s.parts with
  | some fault => exact ⟨fault, rfl, rfl⟩
  | none =>
    -- the parts are longer than what is left of them
    have hlength : (joined s.parts).length = bytes.size - headerSize := by
      rw [← drop_headerSize_of_decode h, List.length_drop]
      rfl
    rw [missing?_eq_none_iff] at hmissing
    omega

/-- An index that was read is its header and its parts. With fewer bytes than a header it is
refused as too small; cut off behind that, it is refused with the one part in which the bytes end,
the offset of this part, its length, and the number of its bytes that are there. -/
theorem ofBytes_extract_of_lt (h : Store.ofBytes bytes = .ok s) (hcount : count < bytes.size) :
    bytes.data.toList = bytes.data.toList.take headerSize ++ joined s.parts
    ∧ if count < headerSize then
        Store.ofBytes (bytes.extract 0 count)
          = .error (.invalidIndex "File too small to contain header")
      else
        ∃ before part after offset, s.parts = before ++ part :: after
          ∧ offset = headerSize + (joined before).length
          ∧ offset ≤ count ∧ count < offset + part.bytes.length
          ∧ Store.ofBytes (bytes.extract 0 count)
            = .error (.invalidIndex
                ("Truncated while reading " ++ part.field.name ++ " at offset " ++ toString offset
                  ++ ": need " ++ toString part.bytes.length ++ " bytes, "
                  ++ toString (count - offset) ++ " left")) := by
  rw [ofBytes_eq_ok_iff] at h
  refine ⟨by rw [← drop_headerSize_of_decode h, List.take_append_drop], ?_⟩
  unfold Store.ofBytes
  rw [decode_eq_readStore]
  split
  case isTrue hshort =>
    have hmissing : readHeader (bytes.extract 0 count) = .error .headerMissing :=
      if_pos (by rwa [size_extract_of_lt hcount])
    rw [readStore, hmissing]
    rfl
  case isFalse hlong =>
    obtain ⟨fault, hmissing, hread⟩ := readStore_extract h (Nat.le_of_not_lt hlong) hcount
    obtain ⟨before, part, after, hparts, hbefore, hpart, rfl⟩ := exists_of_missing? hmissing
    refine ⟨before, part, after, _, hparts, rfl, by omega, by omega, ?_⟩
    rw [hread, error_bind, Nat.sub_sub]
    rfl

/-- An index of one record, cut off inside its row. -/
theorem ofBytes_oneRecord_extract :
    38 < oneRecord.size
    ∧ ∃ s, Store.ofBytes oneRecord = .ok s
      ∧ ∃ before part after offset, s.parts = before ++ part :: after
        ∧ offset = headerSize + (joined before).length
        ∧ offset ≤ 38 ∧ 38 < offset + part.bytes.length
        ∧ Store.ofBytes (oneRecord.extract 0 38)
          = .error (.invalidIndex
              ("Truncated while reading " ++ part.field.name ++ " at offset " ++ toString offset
                ++ ": need " ++ toString part.bytes.length ++ " bytes, "
                ++ toString (38 - offset) ++ " left")) := by
  have hcount : 38 < oneRecord.size := by decide
  have hread : (Store.ofBytes oneRecord).toOption.isSome = true := by decide +kernel
  refine ⟨hcount, ?_⟩
  cases h : Store.ofBytes oneRecord with
  | error e =>
    rw [h] at hread
    cases hread
  | ok s =>
    refine ⟨s, rfl, ?_⟩
    have hcut := (ofBytes_extract_of_lt h hcount).2
    rwa [if_neg (by decide)] at hcut

end

end NeighborSearch.Index
