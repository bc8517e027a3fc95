import NeighborSearch.Index.Decode
import NeighborSearch.Proofs.Outcome

/-!
# The records of a store

A store keeps labels and components apart; this file joins them again. `Rows.ofList` is what has
been collected after a list of records, and `firstFault?` is what is wrong with the first record
of a list that may not be collected. With these two, collecting records is an equation
(`collect_ofList`), every store that is built or read is valid, and in a valid store the record at
a position is the element of the list of all records there (`record?_eq_getElem?`).
-/

namespace NeighborSearch.Index

/-! ## Rows of components -/

section Rows

variable {α : Type} {width : Nat}

@[simp] theorem length_splitRows (count : Nat) (xs : List α) :
    (splitRows width count xs).length = count := by
  induction count generalizing xs with
  | zero => rfl
  | succ count ih => rw [splitRows, List.length_cons, ih]

/-- Rows of one width are split where they were joined. -/
theorem splitRows_flatten {rows : List (List α)} (h : ∀ row ∈ rows, row.length = width) :
    splitRows width rows.length rows.flatten = rows := by
  induction rows with
  | nil => rfl
  | cons row rows ih =>
    have hrow : row.length = width := h row List.mem_cons_self
    have hrows : ∀ row ∈ rows, row.length = width := fun r hr => h r (List.mem_cons_of_mem _ hr)
    rw [List.length_cons, List.flatten_cons, splitRows, List.take_left' hrow, List.drop_left' hrow,
      ih hrows]

/-- The row at a position starts after all rows before it. -/
theorem getElem_splitRows {count i : Nat} (xs : List α) (h : i < (splitRows width count xs).length) :
    (splitRows width count xs)[i] = (xs.drop (i * width)).take width := by
  induction count generalizing i xs with
  | zero => simp at h
  | succ count ih =>
    cases i with
    | zero => simp [splitRows]
    | succ i =>
      simp only [splitRows, List.getElem_cons_succ]
      rw [ih, List.drop_drop, Nat.succ_mul, Nat.add_comm]

theorem length_flatten_of_width {rows : List (List α)} (h : ∀ row ∈ rows, row.length = width) :
    rows.flatten.length = rows.length * width := by
  induction rows with
  | nil => simp
  | cons row rows ih =>
    rw [List.flatten_cons, List.length_append, h row List.mem_cons_self,
      ih fun r hr => h r (List.mem_cons_of_mem _ hr), List.length_cons, Nat.succ_mul, Nat.add_comm]

end Rows

/-! ## Collecting records -/

/-- What has been collected after a list of records. -/
def Rows.ofList (records : List (String × List Float32)) : Rows :=
  ⟨(records.map Prod.fst).toArray, (records.map Prod.snd).flatten.toArray⟩

/-- What is wrong with the components of the record at a position, if anything is. -/
def recordFault? (dimension : Dimension) (position : Nat) (row : List Float32) : Option Fault :=
  if row.length ≠ dimension.toNat then some (.wrongDimension position row.length dimension.toNat)
  else if row.all Float32.isFinite then none
  else some (.notFinite position)

/-- What is wrong with the first record that may not stand in an index of a dimension, where
`position` is the position of the head of the list. -/
def firstFault? (dimension : Dimension) (position : Nat)
    (records : List (String × List Float32)) : Option Fault :=
  (records.zipIdx position).findSome? fun entry => recordFault? dimension entry.2 entry.1.2

section Collect

variable {dimension : Dimension} {position : Nat} {records : List (String × List Float32)}

theorem reserve_eq_ofList (count width : Nat) : Rows.reserve count width = Rows.ofList [] := rfl

theorem push_ofList (seen : List (String × List Float32)) (label : String) (row : List Float32) :
    (Rows.ofList seen).push label row = Rows.ofList (seen ++ [(label, row)]) := by
  simp [Rows.ofList, Rows.push]

theorem checkDimension_eq_ok_iff {found : Nat} {u : Unit} :
    checkDimension dimension position found = .ok u ↔ found = dimension.toNat := by
  unfold checkDimension
  split <;> simp_all

theorem checkFinite_eq_ok_iff {row : List Float32} {u : Unit} :
    checkFinite position row = .ok u ↔ row.all Float32.isFinite = true := by
  unfold checkFinite
  split <;> simp_all

/-- The two checks of a record fail with what is wrong with it. -/
theorem checks_eq (row : List Float32) :
    (do checkDimension dimension position row.length; checkFinite position row)
      = match recordFault? dimension position row with
        | some fault => .error fault
        | none => .ok () := by
  unfold checkDimension recordFault? checkFinite
  by_cases hlength : row.length = dimension.toNat
  · rw [if_pos hlength, if_neg (not_not_intro hlength), ok_bind]
    split <;> rfl
  · rw [if_neg hlength, if_pos hlength]
    rfl

theorem recordFault?_eq_none_iff {row : List Float32} :
    recordFault? dimension position row = none
      ↔ row.length = dimension.toNat ∧ row.all Float32.isFinite = true := by
  unfold recordFault?
  by_cases hlength : row.length = dimension.toNat
  · by_cases hfinite : row.all Float32.isFinite = true <;> simp [hlength, hfinite]
  · simp [hlength]

theorem firstFault?_cons (record : String × List Float32) :
    firstFault? dimension position (record :: records)
      = (recordFault? dimension position record.2).or
          (firstFault? dimension (position + 1) records) := by
  rw [firstFault?, List.zipIdx_cons, List.findSome?_cons]
  cases recordFault? dimension position record.2 <;> rfl

/-- Nothing is wrong with records of the right dimension and with finite components. -/
theorem firstFault?_eq_none_iff :
    firstFault? dimension position records = none
      ↔ ∀ record ∈ records,
          record.2.length = dimension.toNat ∧ record.2.all Float32.isFinite = true := by
  induction records generalizing position with
  | nil => simp [firstFault?]
  | cons record records ih =>
    rw [firstFault?_cons, Option.or_eq_none_iff, recordFault?_eq_none_iff, ih,
      List.forall_mem_cons]

/-- All records before the one that is reported are right. -/
theorem exists_of_firstFault? {fault : Fault}
    (h : firstFault? dimension position records = some fault) :
    ∃ before record after, records = before ++ record :: after
      ∧ recordFault? dimension (position + before.length) record.2 = some fault
      ∧ ∀ r ∈ before, r.2.length = dimension.toNat ∧ r.2.all Float32.isFinite = true := by
  induction records generalizing position with
  | nil => cases h
  | cons record records ih =>
    rw [firstFault?_cons] at h
    -- either the head is the wrong record, or it is right and the wrong one follows
    cases hrecord : recordFault? dimension position record.2 with
    | some found =>
      rw [hrecord] at h
      refine ⟨[], record, records, rfl, ?_, fun r hr => by cases hr⟩
      rw [List.length_nil, Nat.add_zero, hrecord]
      exact h
    | none =>
      rw [hrecord, Option.none_or] at h
      obtain ⟨before, wrong, after, rfl, hwrong, hbefore⟩ := ih h
      refine ⟨record :: before, wrong, after, rfl, ?_, ?_⟩
      · rw [List.length_cons, ← hwrong]
        congr 1
        omega
      · exact List.forall_mem_cons.2 ⟨recordFault?_eq_none_iff.1 hrecord, hbefore⟩

/-- Collecting records stops at the first one that is wrong. -/
theorem collect_ofList (seen : List (String × List Float32)) :
    (Rows.ofList seen).collect dimension position records
      = match firstFault? dimension position records with
        | some fault => .error fault
        | none => .ok (Rows.ofList (seen ++ records)) := by
  induction records generalizing seen position with
  | nil => simp [Rows.collect, firstFault?]
  | cons record records ih =>
    obtain ⟨label, row⟩ := record
    -- the checks of one record come before everything else
    have hstep : (Rows.ofList seen).collect dimension position ((label, row) :: records)
        = (do
            (do checkDimension dimension position row.length; checkFinite position row)
            (Rows.ofList (seen ++ [(label, row)])).collect dimension (position + 1) records) := by
      rw [Rows.collect, push_ofList]
      cases checkDimension dimension position row.length <;> rfl
    rw [hstep, checks_eq, firstFault?_cons]
    cases recordFault? dimension position row with
    | some fault => rfl
    | none =>
      rw [ok_bind, ih, List.append_assoc]
      rfl

/-- What a list of records makes: a store of all of them, or the fault of the first one that is
wrong. -/
theorem ofRecords_cons (metric : Metric) (userInfo : String) (first : String × List Float32)
    (rest : List (String × List Float32)) (h : 0 < first.2.length) :
    Store.ofRecords metric userInfo (first :: rest)
      = match firstFault? ⟨first.2.length, h⟩ 0 (first :: rest) with
        | some fault => .error fault
        | none =>
          .ok ((Rows.ofList (first :: rest)).toStore ⟨first.2.length, h⟩ metric userInfo) := by
  rw [Store.ofRecords, dif_pos h, reserve_eq_ofList]
  show ((Rows.ofList []).collect ⟨first.2.length, h⟩ 0 (first :: rest) >>= _) = _
  rw [collect_ofList]
  cases firstFault? ⟨first.2.length, h⟩ 0 (first :: rest) <;> rfl

theorem ofRecords_of_empty_row (metric : Metric) (userInfo : String)
    (first : String × List Float32) (rest : List (String × List Float32)) (h : first.2 = []) :
    Store.ofRecords metric userInfo (first :: rest) = .error .zeroDimension := by
  rw [Store.ofRecords, dif_neg (by rw [h]; simp)]

/-- Why records are refused. -/
theorem ofRecords_eq_error {metric : Metric} {userInfo : String} {first : String × List Float32}
    {rest : List (String × List Float32)} {fault : Fault}
    (h : Store.ofRecords metric userInfo (first :: rest) = .error fault) :
    (first.2 = [] ∧ fault = .zeroDimension)
      ∨ ∃ dimension : Dimension, dimension.toNat = first.2.length
        ∧ ∃ before record after, first :: rest = before ++ record :: after
          ∧ recordFault? dimension before.length record.2 = some fault
          ∧ ∀ r ∈ before, r.2.length = dimension.toNat ∧ r.2.all Float32.isFinite = true := by
  by_cases hpos : 0 < first.2.length
  · right
    refine ⟨⟨first.2.length, hpos⟩, rfl, ?_⟩
    rw [ofRecords_cons metric userInfo first rest hpos] at h
    split at h
    case h_1 found hfound =>
      cases h
      obtain ⟨before, record, after, hsplit, hrecord, hbefore⟩ := exists_of_firstFault? hfound
      rw [Nat.zero_add] at hrecord
      exact ⟨before, record, after, hsplit, hrecord, hbefore⟩
    case h_2 => cases h
  · left
    have hempty : first.2 = [] := List.eq_nil_of_length_eq_zero (by omega)
    rw [ofRecords_of_empty_row metric userInfo first rest hempty] at h
    cases h
    exact ⟨hempty, rfl⟩

end Collect

/-! ## Valid stores -/

section Valid

variable {dimension : Dimension} {metric : Metric} {userInfo : String} {s : Store}
variable {records : List (String × List Float32)}

/-- Records with nothing wrong make a valid store. -/
theorem valid_toStore (hne : records ≠ []) (h : firstFault? dimension 0 records = none) :
    ((Rows.ofList records).toStore dimension metric userInfo).Valid := by
  rw [firstFault?_eq_none_iff] at h
  have hwidth : ∀ row ∈ records.map Prod.snd, row.length = dimension.toNat :=
    List.forall_mem_map.2 fun record hrecord => (h record hrecord).1
  refine ⟨?_, ?_, ?_⟩
  · show 0 < (records.map Prod.fst).length
    rw [List.length_map]
    exact List.length_pos_iff.2 hne
  · show (records.map Prod.snd).flatten.length = (records.map Prod.fst).length * dimension.toNat
    rw [length_flatten_of_width hwidth, List.length_map, List.length_map]
  · intro x hx
    simp only [Rows.toStore, Rows.ofList, List.mem_toArray, List.mem_flatten, List.mem_map] at hx
    obtain ⟨row, ⟨record, hrecord, rfl⟩, hx⟩ := hx
    exact List.all_eq_true.1 (h record hrecord).2 x hx

/-- A store of records of one width lists these records. -/
theorem records_toStore (h : ∀ record ∈ records, record.2.length = dimension.toNat) :
    ((Rows.ofList records).toStore dimension metric userInfo).records
      = records.map fun record => ⟨record.1, record.2⟩ := by
  have hwidth : ∀ row ∈ records.map Prod.snd, row.length = dimension.toNat :=
    List.forall_mem_map.2 h
  have hcount : (records.map Prod.snd).flatten.length / dimension.toNat
      = (records.map Prod.snd).length := by
    rw [length_flatten_of_width hwidth, Nat.mul_div_cancel _ dimension.pos]
  simp only [Store.records, Rows.toStore, Rows.ofList, List.size_toArray, hcount]
  rw [splitRows_flatten hwidth, List.zipWith_map, List.zipWith_self]

/-- What is built from records holds exactly these records, and is valid. -/
theorem ofRecords_eq_ok (h : Store.ofRecords metric userInfo records = .ok s) :
    s.Valid ∧ s.metric = metric ∧ s.userInfo = userInfo
      ∧ s.records = records.map (fun record => ⟨record.1, record.2⟩)
      ∧ ∀ record ∈ records, record.2.length = s.dimension.toNat := by
  cases records with
  | nil => cases h
  | cons first rest =>
    by_cases hfirst : 0 < first.2.length
    · rw [ofRecords_cons metric userInfo first rest hfirst] at h
      split at h
      case h_1 => cases h
      case h_2 hnone =>
        cases h
        have hwidth := firstFault?_eq_none_iff.1 hnone
        exact ⟨valid_toStore (List.cons_ne_nil _ _) hnone, rfl, rfl,
          records_toStore fun record hrecord => (hwidth record hrecord).1,
          fun record hrecord => (hwidth record hrecord).1⟩
    · have hempty : first.2 = [] := List.eq_nil_of_length_eq_zero (by omega)
      rw [ofRecords_of_empty_row metric userInfo first rest hempty] at h
      cases h

namespace Store.Valid

/-- A valid store has as many rows as labels. -/
theorem count_eq (h : s.Valid) : s.values.size / s.dimension.toNat = s.size := by
  rw [h.values_size, Nat.mul_div_cancel _ s.dimension.pos]
  rfl

theorem length_records (h : s.Valid) : s.records.length = s.size := by
  rw [records, h.count_eq, List.length_zipWith, length_splitRows]
  exact Nat.min_self _

/-- The records of a valid store are as long as its dimension says, and finite. -/
theorem of_mem_records (h : s.Valid) {record : Record} (hrecord : record ∈ s.records) :
    record.embedding.length = s.dimension.toNat ∧ ∀ x ∈ record.embedding, x.isFinite = true := by
  obtain ⟨i, hi, rfl⟩ := List.getElem_of_mem hrecord
  have hsize : i < s.size := by
    rw [← h.length_records]
    exact hi
  simp only [records, List.getElem_zipWith, getElem_splitRows]
  constructor
  · have hrow : (i + 1) * s.dimension.toNat ≤ s.values.size := by
      rw [h.values_size]
      exact Nat.mul_le_mul_right _ hsize
    rw [Nat.succ_mul] at hrow
    rw [List.length_take, List.length_drop, Array.length_toList]
    omega
  · intro x hx
    have hmem : x ∈ s.values.toList := List.mem_of_mem_drop (List.mem_of_mem_take hx)
    exact h.finite x (Array.mem_toList_iff.1 hmem)

/-- In a valid store, looking one record up and listing all of them agree. -/
theorem record?_eq_getElem? (h : s.Valid) (i : Nat) : s.record? i = s.records[i]? := by
  by_cases hi : i < s.size
  · have hi' : i < s.labels.size := hi
    have hlabel : s.labels[i]? = some s.labels[i] := Array.getElem?_eq_getElem hi'
    have hlist : i < s.records.length := by
      rw [h.length_records]
      exact hi
    have hwidth : (i + 1) * s.dimension.toNat - i * s.dimension.toNat = s.dimension.toNat := by
      rw [Nat.succ_mul]
      omega
    rw [List.getElem?_eq_getElem hlist]
    simp only [record?, hlabel, records, List.getElem_zipWith, getElem_splitRows,
      Array.getElem_toList, Array.toList_extract, List.extract_eq_take_drop, hwidth]
  · have hlabel : s.labels[i]? = none := Array.getElem?_eq_none (Nat.le_of_not_lt hi)
    have hlist : s.records.length ≤ i := by
      rw [h.length_records]
      exact Nat.le_of_not_lt hi
    rw [List.getElem?_eq_none hlist]
    simp only [record?, hlabel]

end Store.Valid

end Valid

end NeighborSearch.Index
