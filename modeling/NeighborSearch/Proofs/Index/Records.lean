import NeighborSearch.Proofs.Index.Cursor
import NeighborSearch.Proofs.Index.Stores

/-!
# Reading records

Reading a record and collecting it check the same things, but reading looks at the dimension of a
record before its components are there. Here the two are brought together: encoded records are
read up to the first one that is wrong (`readRecords_of_consumes`), and records that were read are
what the bytes encode (`readRecords_eq_ok`).
-/

namespace NeighborSearch.Index

/-- A record whose lengths can be written as words. -/
structure RecordFits (record : String × List Float32) : Prop where
  label : record.1.utf8ByteSize < UInt32.size
  row : record.2.length < UInt32.size

variable {dimension : Dimension} {count position : Nat} {c c' : Cursor}
variable {record : String × List Float32} {records : List (String × List Float32)}

/-! ## Records that were encoded -/

/-- A length that can be written as a word is read as it was written. -/
theorem word_of_length {field : Field} {n : Nat} (hn : n < UInt32.size)
    (h : c.Consumes (wordBytes (.ofNat n)) c') : c.word field = .ok (n, c') :=
  Cursor.word_eq_ok_iff.2 ⟨.ofNat n, UInt32.toNat_ofNat_of_lt' hn, h⟩

/-- An encoded record is read, unless something is wrong with it. -/
theorem readRecord_of_consumes (hfits : RecordFits record)
    (h : c.Consumes (encodeRecord record) c') :
    readRecord dimension position c
      = match recordFault? dimension position record.2 with
        | some fault => .error fault
        | none => .ok (record, c') := by
  obtain ⟨label, row⟩ := record
  -- the four parts of a record, with the cursors between them
  simp only [encodeRecord, encodeText, Cursor.Consumes.append_iff] at h
  obtain ⟨c₃, ⟨c₂, ⟨c₁, hlength, hlabel⟩, hfound⟩, hrow⟩ := h
  rw [readRecord_eq]
  simp only [word_of_length hfits.label hlength, Cursor.text_eq_ok_iff.2 ⟨rfl, hlabel⟩,
    word_of_length hfits.row hfound, ok_bind]
  unfold recordFault? checkDimension
  by_cases hdimension : row.length = dimension.toNat
  · -- only now is it known how many components are read
    have hvalues : c₃.values .embedding dimension.toNat = .ok (row, c') := by
      rw [← hdimension]
      exact Cursor.values_eq_ok hrow
    rw [if_pos hdimension, if_neg (not_not_intro hdimension), ok_bind, hvalues, ok_bind]
    dsimp only [checkFinite]
    split <;> rfl
  · rw [if_neg hdimension, if_pos hdimension]
    rfl

/-- Encoded records are read up to the first one that something is wrong with. -/
theorem readRecords_of_consumes (hfits : ∀ record ∈ records, RecordFits record)
    (h : c.Consumes (records.flatMap encodeRecord) c') (seen : List (String × List Float32)) :
    readRecords dimension records.length position (Rows.ofList seen) c
      = match firstFault? dimension position records with
        | some fault => .error fault
        | none => .ok (Rows.ofList (seen ++ records), c') := by
  induction records generalizing c position seen with
  | nil =>
    rw [List.flatMap_nil, Cursor.Consumes.nil_iff] at h
    subst h
    rw [List.append_nil]
    rfl
  | cons record records ih =>
    rw [List.flatMap_cons, Cursor.Consumes.append_iff] at h
    obtain ⟨c₁, hrecord, hrecords⟩ := h
    have hrest : ∀ r ∈ records, RecordFits r := fun r hr => hfits r (List.mem_cons_of_mem _ hr)
    rw [List.length_cons, readRecords_succ, firstFault?_cons,
      readRecord_of_consumes (hfits record List.mem_cons_self) hrecord]
    cases recordFault? dimension position record.2 with
    | some fault => rfl
    | none =>
      simp only [ok_bind, push_ofList, Option.none_or]
      rw [ih hrest hrecords, List.append_assoc]
      rfl

/-! ## Records that were read -/

/-- A record that was read is what its bytes encode, and nothing is wrong with it. Its lengths were
read from words. -/
theorem readRecord_eq_ok (h : readRecord dimension position c = .ok (record, c')) :
    RecordFits record ∧ recordFault? dimension position record.2 = none
      ∧ c.Consumes (encodeRecord record) c' := by
  rw [readRecord_eq] at h
  obtain ⟨⟨length, c₁⟩, hlength, h⟩ := bind_eq_ok_iff.1 h
  obtain ⟨⟨label, c₂⟩, hlabel, h⟩ := bind_eq_ok_iff.1 h
  obtain ⟨⟨found, c₃⟩, hfound, h⟩ := bind_eq_ok_iff.1 h
  obtain ⟨⟨⟩, hdimension, h⟩ := bind_eq_ok_iff.1 h
  obtain ⟨⟨row, c₄⟩, hrow, h⟩ := bind_eq_ok_iff.1 h
  obtain ⟨⟨⟩, hfinite, h⟩ := bind_eq_ok_iff.1 h
  simp only [Except.ok.injEq, Prod.mk.injEq] at h
  obtain ⟨rfl, rfl⟩ := h
  rw [checkDimension_eq_ok_iff] at hdimension
  rw [checkFinite_eq_ok_iff] at hfinite
  obtain ⟨hwidth, hvalues⟩ := Cursor.consumes_of_values hrow hfinite
  obtain ⟨w, hw, hlength⟩ := Cursor.word_eq_ok_iff.1 hlength
  obtain ⟨hsize, hlabel⟩ := Cursor.text_eq_ok_iff.1 hlabel
  obtain ⟨v, hv, hfound⟩ := Cursor.word_eq_ok_iff.1 hfound
  have hfits : RecordFits (label, row) := by
    refine ⟨?_, ?_⟩
    · show label.utf8ByteSize < UInt32.size
      rw [hsize, ← hw]
      exact w.toNat_lt_size
    · show row.length < UInt32.size
      rw [hwidth, ← hdimension, ← hv]
      exact v.toNat_lt_size
  refine ⟨hfits, recordFault?_eq_none_iff.2 ⟨hwidth, hfinite⟩, ?_⟩
  -- both length words are determined by what they count
  have hw' : UInt32.ofNat label.utf8ByteSize = w := by
    rw [hsize, ← hw, UInt32.ofNat_toNat]
  have hv' : UInt32.ofNat row.length = v := by
    rw [hwidth, ← hdimension, ← hv, UInt32.ofNat_toNat]
  simp only [encodeRecord, encodeText, hw', hv']
  exact ((hlength.trans hlabel).trans hfound).trans hvalues

/-- Records that were read are what their bytes encode, and nothing is wrong with them. -/
theorem readRecords_eq_ok {rows : Rows} {seen : List (String × List Float32)}
    (h : readRecords dimension count position (Rows.ofList seen) c = .ok (rows, c')) :
    ∃ records, records.length = count ∧ rows = Rows.ofList (seen ++ records)
      ∧ (∀ record ∈ records, RecordFits record)
      ∧ firstFault? dimension position records = none
      ∧ c.Consumes (records.flatMap encodeRecord) c' := by
  induction count generalizing position c seen with
  | zero =>
    simp only [readRecords_zero, Except.ok.injEq, Prod.mk.injEq] at h
    obtain ⟨rfl, rfl⟩ := h
    exact ⟨[], rfl, by rw [List.append_nil], List.forall_mem_nil _, rfl, Cursor.Consumes.refl c⟩
  | succ count ih =>
    rw [readRecords_succ] at h
    obtain ⟨⟨record, c₁⟩, hrecord, h⟩ := bind_eq_ok_iff.1 h
    obtain ⟨hfits, hsound, hconsumes⟩ := readRecord_eq_ok hrecord
    dsimp only at h
    rw [push_ofList] at h
    obtain ⟨records, hlength, hrows, hall, hnone, hrest⟩ := ih h
    refine ⟨record :: records, ?_, ?_, List.forall_mem_cons.2 ⟨hfits, hall⟩, ?_, ?_⟩
    · rw [List.length_cons, hlength]
    · rw [hrows, List.append_assoc]
      rfl
    · rw [firstFault?_cons, hsound, hnone]
      rfl
    · rw [List.flatMap_cons]
      exact hconsumes.trans hrest

end NeighborSearch.Index
