import NeighborSearch.Proofs.Index.Records

/-!
# Whole indices

Three things live here:

1. the header as bytes (`encodeHeader`), what is read from it, and what was there when it was read;
2. what a whole index is read as: the store of the records it encodes, or what is wrong with them;
3. what the bytes of an index are once it has been read.

The two ways to a store, from bytes and from records, then come to the same outcome.
-/

namespace NeighborSearch.Index

/-! ## Headers -/

/-- The bytes of a header. -/
def encodeHeader (dimension count metricId userInfoLength : UInt32) : List UInt8 :=
  magic ++ wordBytes formatVersion ++ wordBytes dimension ++ wordBytes count ++ wordBytes metricId
    ++ wordBytes userInfoLength

section Header

variable {bytes : ByteArray} {d n m u : UInt32} {tail : List UInt8}

theorem length_encodeHeader : (encodeHeader d n m u).length = headerSize := rfl

theorem encode_eq (userInfo : String) (records : List (String × List Float32)) :
    encode d m userInfo records
      = encodeHeader d (.ofNat records.length) m (.ofNat userInfo.utf8ByteSize)
          ++ (userInfo.toUTF8.data.toList ++ records.flatMap encodeRecord) := by
  simp only [encode, encodeHeader, encodeText, List.append_assoc]

/-- The words of a header are read where they were written. -/
theorem readHeader_of_append (h : bytes.data.toList = encodeHeader d n m u ++ tail) :
    readHeader bytes
      = if hd : 0 < d.toNat then
          if n = 0 then .error .noRecords
          else match Metric.ofId? m with
            | none => .error (.unknownMetric m)
            | some metric => .ok ⟨⟨d.toNat, hd⟩, n.toNat, metric, u.toNat⟩
        else .error .zeroDimension := by
  have hsize : ¬bytes.size < headerSize := by
    have hlength := congrArg List.length h
    rw [List.length_append, length_encodeHeader] at hlength
    have htotal : bytes.data.toList.length = bytes.size := rfl
    omega
  have hmagic : (bytes.extract 0 wordSize).data.toList = magic := by
    rw [ByteArray.data_extract, Array.toList_extract, h]
    rfl
  have hword {i : Nat} {w : UInt32} {rest : List UInt8}
      (hdrop : (encodeHeader d n m u ++ tail).drop i = wordBytes w ++ rest) :
      wordAt bytes i = w := by
    apply wordAt_eq_of_drop
    rw [h, hdrop]
  have hversion : wordAt bytes 4 = formatVersion := hword rfl
  have hdimension : wordAt bytes 8 = d := hword rfl
  have hcount : wordAt bytes 12 = n := hword rfl
  have hmetric : wordAt bytes 16 = m := hword rfl
  have hlength : wordAt bytes 20 = u := hword rfl
  subst hdimension hcount hmetric hlength
  rw [readHeader_eq]
  refine (if_neg hsize).trans ?_
  refine (if_neg (not_not_intro hmagic)).trans ?_
  exact if_neg (not_not_intro hversion)

/-- The six words of a header. -/
theorem take_headerSize (l : List UInt8) :
    l.take headerSize
      = (l.drop 0).take wordSize ++ (l.drop 4).take wordSize ++ (l.drop 8).take wordSize
          ++ (l.drop 12).take wordSize ++ (l.drop 16).take wordSize
          ++ (l.drop 20).take wordSize := by
  simp only [headerSize, wordSize, List.drop_zero, ← List.take_add]

/-- What is known about the bytes that a header was read from. -/
structure Header.ReadFrom (header : Header) (bytes : ByteArray) : Prop where
  size_le : headerSize ≤ bytes.size
  magic_eq : (bytes.extract 0 wordSize).data.toList = magic
  version_eq : wordAt bytes 4 = formatVersion
  dimension_eq : header.dimension.toNat = (wordAt bytes 8).toNat
  count_ne : wordAt bytes 12 ≠ 0
  count_eq : header.count = (wordAt bytes 12).toNat
  metric_eq : wordAt bytes 16 = header.metric.id
  userInfoLength_eq : header.userInfoLength = (wordAt bytes 20).toNat

theorem readHeader_eq_ok {header : Header} (h : readHeader bytes = .ok header) :
    header.ReadFrom bytes := by
  rw [readHeader_eq] at h
  split at h
  · cases h
  case isFalse hsize =>
  split at h
  · cases h
  case isFalse hmagic =>
  split at h
  · cases h
  case isFalse hversion =>
  split at h
  case isFalse => cases h
  case isTrue hpos =>
  split at h
  · cases h
  case isFalse hcount =>
  split at h
  · cases h
  case h_2 metric hmetric =>
  -- all checks have passed, and the header has the words that were checked
  cases h
  exact ⟨Nat.le_of_not_lt hsize, Decidable.not_not.1 hmagic, Decidable.not_not.1 hversion, rfl,
    hcount, rfl, Metric.ofId?_eq_some_iff.1 hmetric, rfl⟩

namespace Header.ReadFrom

variable {header : Header}

/-- A header is never read for an index without records. -/
theorem count_pos (h : header.ReadFrom bytes) : 0 < header.count := by
  rw [h.count_eq, Nat.pos_iff_ne_zero]
  intro hzero
  exact h.count_ne (UInt32.toNat_inj.1 hzero)

theorem dimension_lt (h : header.ReadFrom bytes) : header.dimension.toNat < UInt32.size := by
  rw [h.dimension_eq]
  exact (wordAt bytes 8).toNat_lt_size

theorem count_lt (h : header.ReadFrom bytes) : header.count < UInt32.size := by
  rw [h.count_eq]
  exact (wordAt bytes 12).toNat_lt_size

theorem userInfoLength_lt (h : header.ReadFrom bytes) : header.userInfoLength < UInt32.size := by
  rw [h.userInfoLength_eq]
  exact (wordAt bytes 20).toNat_lt_size

/-- A header that was read stands at the front of the bytes. -/
theorem take_eq (h : header.ReadFrom bytes) :
    bytes.data.toList.take headerSize
      = encodeHeader (.ofNat header.dimension.toNat) (.ofNat header.count) header.metric.id
          (.ofNat header.userInfoLength) := by
  have hword (i : Nat) (hi : i + wordSize ≤ headerSize) :
      (bytes.data.toList.drop i).take wordSize = wordBytes (wordAt bytes i) :=
    (wordBytes_wordAt (Nat.le_trans hi h.size_le)).symm
  have hfront : (bytes.data.toList.drop 0).take wordSize = magic := by
    rw [← h.magic_eq, ByteArray.data_extract, Array.toList_extract]
    rfl
  rw [take_headerSize, hfront, hword 4 (by decide), hword 8 (by decide), hword 12 (by decide),
    hword 16 (by decide), hword 20 (by decide), h.version_eq, h.metric_eq, h.dimension_eq,
    h.count_eq, h.userInfoLength_eq]
  simp only [encodeHeader, UInt32.ofNat_toNat]

end Header.ReadFrom

end Header

/-! ## What is read from an encoded index -/

/-- User info and records whose lengths can be written as words. -/
structure Fits (userInfo : String) (records : List (String × List Float32)) : Prop where
  count : records.length < UInt32.size
  userInfo : userInfo.utf8ByteSize < UInt32.size
  records : ∀ record ∈ records, RecordFits record

section Encoded

variable {metric : Metric} {userInfo : String} {bytes : ByteArray}
variable {records : List (String × List Float32)}

/-- The header of an encoded index is read as it was written. -/
theorem readHeader_of_encode {dimension : Dimension} (hfits : Fits userInfo records)
    (hdimension : dimension.toNat < UInt32.size) (hne : records ≠ [])
    (h : bytes.data.toList = encode (.ofNat dimension.toNat) metric.id userInfo records) :
    readHeader bytes = .ok ⟨dimension, records.length, metric, userInfo.utf8ByteSize⟩ := by
  have hcount : UInt32.ofNat records.length ≠ 0 := by
    intro hzero
    have hlength := congrArg UInt32.toNat hzero
    rw [UInt32.toNat_ofNat_of_lt' hfits.count] at hlength
    exact hne (List.eq_nil_of_length_eq_zero hlength)
  rw [encode_eq] at h
  rw [readHeader_of_append h]
  simp only [UInt32.toNat_ofNat_of_lt' hdimension, UInt32.toNat_ofNat_of_lt' hfits.count,
    UInt32.toNat_ofNat_of_lt' hfits.userInfo, dif_pos dimension.pos, if_neg hcount,
    Metric.ofId?_id]

/-- An encoded index is read as the store of its records, or something is wrong with the first of
them that may not stand there. -/
theorem decode_of_encode {dimension : Dimension} (hfits : Fits userInfo records)
    (hdimension : dimension.toNat < UInt32.size) (hne : records ≠ [])
    (h : bytes.data.toList = encode (.ofNat dimension.toNat) metric.id userInfo records) :
    decode bytes
      = match firstFault? dimension 0 records with
        | some fault => .error fault
        | none => .ok ((Rows.ofList records).toStore dimension metric userInfo) := by
  have hheader := readHeader_of_encode hfits hdimension hne h
  rw [encode_eq] at h
  -- the cursor behind the header sees the user info, then the records, then nothing
  have hrest : (Cursor.mk bytes headerSize).rest
      = (userInfo.toUTF8.data.toList ++ records.flatMap encodeRecord) ++ [] := by
    rw [Cursor.rest, h, List.append_nil]
    exact List.drop_left' length_encodeHeader
  obtain ⟨c₁, hinfo, hrecords⟩ := Cursor.Consumes.append_iff.1 (Cursor.consumes_advance hrest)
  have hend : ((Cursor.mk bytes headerSize).advance
      (userInfo.toUTF8.data.toList ++ records.flatMap encodeRecord).length).left = 0 := by
    rw [Cursor.left_eq_length_rest, Cursor.rest_advance, hrest, List.drop_left]
    rfl
  rw [decode_eq, hheader, ok_bind]
  simp only [Cursor.text_eq_ok_iff.2 ⟨rfl, hinfo⟩, ok_bind, reserve_eq_ofList]
  rw [readRecords_of_consumes hfits.records hrecords]
  cases firstFault? dimension 0 records with
  | some fault => rfl
  | none =>
    simp only [ok_bind, List.nil_append]
    rw [if_pos hend]

/-- Without components in the first record, neither way gives a store. -/
theorem decode_of_zeroDimension
    (h : bytes.data.toList = encode (.ofNat 0) metric.id userInfo records) :
    decode bytes = .error .zeroDimension := by
  rw [encode_eq] at h
  rw [decode_eq, readHeader_of_append h, dif_neg (by decide)]
  rfl

/-- Reading an encoded index and building a store from its records agree. -/
theorem decode_encode (first : String × List Float32) (rest : List (String × List Float32))
    (hfits : Fits userInfo (first :: rest))
    (h : bytes.data.toList = encode (.ofNat first.2.length) metric.id userInfo (first :: rest)) :
    decode bytes = Store.ofRecords metric userInfo (first :: rest) := by
  have hfirst : first.2.length < UInt32.size := (hfits.records first List.mem_cons_self).row
  by_cases hpos : 0 < first.2.length
  · rw [ofRecords_cons metric userInfo first rest hpos]
    exact decode_of_encode hfits hfirst (List.cons_ne_nil _ _) h
  · have hempty : first.2 = [] := List.eq_nil_of_length_eq_zero (by omega)
    rw [ofRecords_of_empty_row metric userInfo first rest hempty]
    rw [hempty, List.length_nil] at h
    exact decode_of_zeroDimension h

/-- Reading an encoded index and building a store from its records come to the same outcome, where
the dimension in the header is that of the first record. Either both give the store with that
dimension, this metric and user info, and exactly these records, or both refuse them for the same
reason: there are no components in the first record, or a record is wrong and all before it are
right. -/
theorem ofBytes_encode (metric : Metric) (userInfo : String) (first : String × List Float32)
    (rest : List (String × List Float32)) (hfits : Fits userInfo (first :: rest)) :
    Store.ofBytes
        (encode (.ofNat first.2.length) metric.id userInfo (first :: rest)).toByteArray
      = (Store.ofRecords metric userInfo (first :: rest)).mapError Fault.toError
    ∧ match Store.ofRecords metric userInfo (first :: rest) with
      | .ok s =>
        s.dimension.toNat = first.2.length ∧ s.metric = metric ∧ s.userInfo = userInfo
          ∧ s.records = (first :: rest).map fun record => ⟨record.1, record.2⟩
      | .error fault =>
        (first.2 = [] ∧ fault = .zeroDimension)
          ∨ ∃ dimension : Dimension, dimension.toNat = first.2.length
            ∧ ∃ before record after, first :: rest = before ++ record :: after
              ∧ recordFault? dimension before.length record.2 = some fault
              ∧ ∀ r ∈ before,
                  r.2.length = dimension.toNat ∧ r.2.all Float32.isFinite = true := by
  constructor
  · rw [Store.ofBytes, decode_encode first rest hfits (by rw [List.data_toByteArray])]
  · cases h : Store.ofRecords metric userInfo (first :: rest) with
    | ok s =>
      obtain ⟨_, hmetric, hinfo, hrecords, hwidth⟩ := ofRecords_eq_ok h
      exact ⟨(hwidth first List.mem_cons_self).symm, hmetric, hinfo, hrecords⟩
    | error fault => exact ofRecords_eq_error h

/-- An index of two records, the second of which has a component too few. -/
theorem ofBytes_encode_of_short_row :
    Fits "" [("a", [0, 0]), ("b", [0])]
    ∧ Store.ofBytes (encode 2 Metric.l2.id "" [("a", [0, 0]), ("b", [0])]).toByteArray
      = .error (Fault.wrongDimension 1 1 2).toError := by
  have hfits : Fits "" [("a", [0, 0]), ("b", [0])] := by
    refine ⟨by decide, by decide, ?_⟩
    intro record hrecord
    simp only [List.mem_cons, List.not_mem_nil, or_false] at hrecord
    rcases hrecord with rfl | rfl <;> exact ⟨by decide, by decide⟩
  refine ⟨hfits, ?_⟩
  have h := (ofBytes_encode .l2 "" ("a", [0, 0]) [("b", [0])] hfits).1
  rw [show Store.ofRecords .l2 "" [("a", [0, 0]), ("b", [0])]
    = .error (.wrongDimension 1 1 2) by rfl] at h
  exact h

end Encoded

/-! ## What was there when an index was read -/

/-- An index that was read is the encoding of records that make up its store, none of which is
wrong, and all lengths in it were read from words. -/
theorem exists_of_decode {bytes : ByteArray} {s : Store} (h : decode bytes = .ok s) :
    ∃ records, records ≠ [] ∧ firstFault? s.dimension 0 records = none
      ∧ Fits s.userInfo records ∧ s.dimension.toNat < UInt32.size
      ∧ s = (Rows.ofList records).toStore s.dimension s.metric s.userInfo
      ∧ s.records = records.map (fun record => ⟨record.1, record.2⟩)
      ∧ bytes.data.toList
        = encode (.ofNat s.dimension.toNat) s.metric.id s.userInfo records := by
  rw [decode_eq] at h
  obtain ⟨header, hheader, h⟩ := bind_eq_ok_iff.1 h
  obtain ⟨⟨userInfo, c₁⟩, hinfo, h⟩ := bind_eq_ok_iff.1 h
  obtain ⟨⟨rows, c₂⟩, hrows, h⟩ := bind_eq_ok_iff.1 h
  dsimp only at h
  split at h
  case isFalse => cases h
  case isTrue hleft =>
  cases h
  have hread := readHeader_eq_ok hheader
  have hcount := hread.count_pos
  obtain ⟨hlength, hinfo⟩ := Cursor.text_eq_ok_iff.1 hinfo
  rw [reserve_eq_ofList] at hrows
  obtain ⟨records, hrecords, rfl, hall, hnone, hconsumes⟩ := readRecords_eq_ok hrows
  have hfits : Fits userInfo records := by
    refine ⟨?_, ?_, hall⟩
    · rw [hrecords]
      exact hread.count_lt
    · rw [hlength]
      exact hread.userInfoLength_lt
  have hwidth : ∀ record ∈ records, record.2.length = header.dimension.toNat :=
    fun record hrecord => (firstFault?_eq_none_iff.1 hnone record hrecord).1
  refine ⟨records, List.length_pos_iff.1 (by omega), hnone, hfits, hread.dimension_lt, rfl,
    records_toStore hwidth, ?_⟩
  -- nothing is left behind the records, so header, user info and records are all of the bytes
  have hrest : c₂.rest = [] := by
    rw [← List.length_eq_zero_iff, ← Cursor.left_eq_length_rest]
    exact hleft
  have hbody := (hinfo.trans hconsumes).rest_eq
  rw [hrest, List.append_nil, Cursor.rest] at hbody
  show bytes.data.toList = encode (.ofNat header.dimension.toNat) header.metric.id userInfo records
  rw [encode_eq, hlength, hrecords, ← hread.take_eq, ← hbody, List.take_append_drop]

/-- The bytes of an index that was read are those that its store encodes to, and the store is
valid. -/
theorem decode_eq_ok {bytes : ByteArray} {s : Store} (h : decode bytes = .ok s) :
    s.Valid ∧ s.encode = bytes.data.toList := by
  obtain ⟨records, hne, hnone, -, -, hs, hrecords, hbytes⟩ := exists_of_decode h
  have hmap : (records.map fun record => Record.mk record.1 record.2).map
      (fun r => (r.metadata, r.embedding)) = records := by
    rw [List.map_map]
    exact List.map_id records
  constructor
  · rw [hs]
    exact valid_toStore hne hnone
  · rw [Store.encode, hrecords, hmap, hbytes]

/-- A search reads a store from bytes if and only if decoding them gives this store. -/
theorem ofBytes_eq_ok_iff {bytes : ByteArray} {s : Store} :
    Store.ofBytes bytes = .ok s ↔ decode bytes = .ok s := by
  unfold Store.ofBytes
  cases decode bytes with
  | error fault => simp [Except.mapError]
  | ok s' => simp [Except.mapError]

/-- All stores are valid. -/
theorem Store.Reachable.valid {s : Store} (h : s.Reachable) : s.Valid := by
  cases h with
  | loaded h => exact (decode_eq_ok (ofBytes_eq_ok_iff.1 h)).1
  | built h => exact (ofRecords_eq_ok h).1

end NeighborSearch.Index
