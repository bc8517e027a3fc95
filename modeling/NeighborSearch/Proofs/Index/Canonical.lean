import NeighborSearch.Proofs.Index.Guarded

/-!
# The index format is canonical

An index is read from exactly one sequence of bytes: the one that its store encodes to. All other
bytes are refused, and always as an invalid index.
-/

namespace NeighborSearch.Index

/-- Different bytes are never read as the same store. -/
theorem decode_inj {a b : ByteArray} {s : Store} (ha : decode a = .ok s) (hb : decode b = .ok s) :
    a = b := by
  have hbytes : a.data.toList = b.data.toList := by
    rw [← (decode_eq_ok ha).2, (decode_eq_ok hb).2]
  apply ByteArray.ext
  exact Array.toList_inj.1 hbytes

/-- Reading any bytes never looks outside them, and has one of two outcomes. Either there is a
valid store, with records and of a dimension above zero and with finite components alone, which
encodes to exactly these bytes and is read from no others; or the bytes are refused as an invalid
index. -/
theorem ofBytes_canonical (bytes : ByteArray) :
    (decode? bytes).run = some (decode bytes)
    ∧ match Store.ofBytes bytes with
      | .ok s =>
        s.encode = bytes.data.toList
          ∧ s.records.length = s.size ∧ 0 < s.size ∧ 0 < s.dimension.toNat
          ∧ (∀ record ∈ s.records, record.embedding.length = s.dimension.toNat
              ∧ ∀ x ∈ record.embedding, x.isFinite = true)
          ∧ ∀ other, Store.ofBytes other = .ok s → other = bytes
      | .error error => ∃ fault : Fault, error = .invalidIndex fault.reason := by
  refine ⟨decode?_is bytes, ?_⟩
  cases h : Store.ofBytes bytes with
  | ok s =>
    rw [ofBytes_eq_ok_iff] at h
    obtain ⟨hvalid, hencode⟩ := decode_eq_ok h
    refine ⟨hencode, hvalid.length_records, hvalid.nonempty, s.dimension.pos, ?_, ?_⟩
    · intro record hrecord
      exact hvalid.of_mem_records hrecord
    · intro other hother
      exact decode_inj (ofBytes_eq_ok_iff.1 hother) h
  | error error =>
    unfold Store.ofBytes at h
    cases hdecode : decode bytes with
    | ok s =>
      rw [hdecode] at h
      cases h
    | error fault =>
      rw [hdecode] at h
      cases h
      exact ⟨fault, rfl⟩

end NeighborSearch.Index
