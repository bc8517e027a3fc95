import NeighborSearch.Proofs.Index.Format

/-!
# Looking records up

A store keeps its labels in one array and its components in another, and nothing but arithmetic
ties the two together: the row of a record starts after as many rows as there are labels before
its own. Here is what this comes to for every store that is read or built. Each label has its row,
the row lies within the components, and the record at a position is the same whether it is looked
up, listed or remembered from the input.
-/

namespace NeighborSearch.Index.Store

variable {s : Store} {record : Record} {i j : Nat}

/-- There is a record wherever there is a label. -/
theorem isSome_record?_iff : (s.record? i).isSome = true ↔ i < s.size := by
  unfold record? size
  by_cases hi : i < s.labels.size
  · rw [Array.getElem?_eq_getElem hi]
    exact ⟨fun _ => hi, fun _ => rfl⟩
  · rw [Array.getElem?_eq_none (Nat.le_of_not_lt hi)]
    exact ⟨fun h => absurd h Bool.false_ne_true, fun h => absurd h hi⟩

/-- The two parts of a record that has been looked up. -/
theorem record?_eq_some (h : s.record? i = some record) :
    s.labels[i]? = some record.metadata
      ∧ record.embedding
        = (s.values.extract (i * s.dimension.toNat) ((i + 1) * s.dimension.toNat)).toList := by
  unfold record? at h
  split at h
  · cases h
  · next label hlabel =>
    cases h
    exact ⟨hlabel, rfl⟩

namespace Valid

/-- In a valid store the row of a record lies within the components. -/
theorem row_le_size (h : s.Valid) (hi : i < s.size) :
    (i + 1) * s.dimension.toNat ≤ s.values.size := by
  rw [h.values_size]
  exact Nat.mul_le_mul_right _ hi

/-- The components of a record are those of its row. -/
theorem getElem?_embedding (h : s.Valid) (hrecord : s.record? i = some record)
    (hj : j < s.dimension.toNat) :
    record.embedding[j]? = s.values[i * s.dimension.toNat + j]? := by
  have hi : i < s.size := isSome_record?_iff.1 (Option.isSome_of_eq_some hrecord)
  have hrow := h.row_le_size hi
  rw [Nat.succ_mul] at hrow
  rw [(record?_eq_some hrecord).2, Array.getElem?_toList, Array.getElem?_extract, Nat.succ_mul,
    if_pos]
  omega

end Valid

/-- The labels and the components of a store that is read or built belong together. There are
records, of a dimension above zero; there are exactly as many components as the records need, and
all are finite. So there is a record at each position below the number of records and at no other,
its row lies within the components and has the length of the dimension, and listing the records
gives at each position the one that is looked up there. In a store that is built these are the
records that it was built from. -/
theorem lookup_of_reachable (hs : s.Reachable) :
    0 < s.dimension.toNat ∧ 0 < s.size
    ∧ s.values.size = s.size * s.dimension.toNat
    ∧ (∀ x ∈ s.values, x.isFinite = true)
    ∧ s.records.length = s.size
    ∧ (∀ i, s.record? i = s.records[i]?)
    ∧ (∀ i, (s.record? i).isSome = true ↔ i < s.size)
    ∧ (∀ i record, s.record? i = some record →
        (i + 1) * s.dimension.toNat ≤ s.values.size
        ∧ s.labels[i]? = some record.metadata
        ∧ record.embedding.length = s.dimension.toNat
        ∧ ∀ j < s.dimension.toNat,
            record.embedding[j]? = s.values[i * s.dimension.toNat + j]?)
    ∧ ∀ (metric : Metric) (userInfo : String) (records : List (String × List Float32)),
        Store.ofRecords metric userInfo records = .ok s →
          ∀ i, s.record? i = records[i]?.map fun record => ⟨record.1, record.2⟩ := by
  have hvalid := hs.valid
  refine ⟨s.dimension.pos, hvalid.nonempty, hvalid.values_size, hvalid.finite,
    hvalid.length_records, hvalid.record?_eq_getElem?, fun _ => isSome_record?_iff, ?_, ?_⟩
  · intro i record hrecord
    have hi : i < s.size := isSome_record?_iff.1 (Option.isSome_of_eq_some hrecord)
    have hmem : record ∈ s.records := by
      rw [hvalid.record?_eq_getElem?] at hrecord
      exact List.mem_of_getElem? hrecord
    exact ⟨hvalid.row_le_size hi, (record?_eq_some hrecord).1, (hvalid.of_mem_records hmem).1,
      fun j hj => hvalid.getElem?_embedding hrecord hj⟩
  · intro metric userInfo records hbuilt i
    obtain ⟨_, _, _, hrecords, _⟩ := ofRecords_eq_ok hbuilt
    rw [hvalid.record?_eq_getElem?, hrecords, List.getElem?_map]

/-- Two records of two components, the first of them without a label. -/
def twoRows : Store :=
  ⟨⟨2, Nat.two_pos⟩, .l2, "", #["", "b"], #[1, 2, 3, 4]⟩

/-- The second record starts with the third component, and there is no third record. -/
theorem lookup_twoRows :
    twoRows.Reachable
    ∧ twoRows.record? 1 = some ⟨"b", [3, 4]⟩
    ∧ twoRows.records[1]? = some ⟨"b", [3, 4]⟩
    ∧ ¬(twoRows.record? 2).isSome = true := by
  have hbuilt : Store.ofRecords .l2 "" [("", [1, 2]), ("b", [3, 4])] = .ok twoRows := rfl
  have hs : twoRows.Reachable := .built hbuilt
  obtain ⟨_, _, _, _, _, hlist, hsome, _, hinput⟩ := lookup_of_reachable hs
  have hsecond : twoRows.record? 1 = some ⟨"b", [3, 4]⟩ := hinput _ _ _ hbuilt 1
  refine ⟨hs, hsecond, ?_, ?_⟩
  · rw [← hlist, hsecond]
  · rw [hsome]
    decide

end NeighborSearch.Index.Store
