import NeighborSearch.Proofs.Index.Format
import NeighborSearch.Proofs.Ranking.Shortlist
import NeighborSearch.Ranking.FullSort

/-!
# Searching is sorting

A scan offers its shortlist one candidate for each record that passes the filter. With the
invariant of shortlists the list at the end is the front of all these candidates in their order,
so that a search gives what sorting all records would give.
-/

namespace NeighborSearch

/-! ## Tokens -/

namespace CancellationToken

variable {token : CancellationToken} {total : Nat}

/-- A token that is cancelled already stops a search before its first record. -/
theorem stop?_of_cancelled (htotal : 0 < total) (h : token.cancelledAfter 0 = true) :
    token.stop? total = some 0 := by
  obtain ⟨rest, rfl⟩ := Nat.exists_eq_succ_of_ne_zero (Nat.ne_of_gt htotal)
  rw [stop?, List.range_succ_eq_map, List.find?_cons, h]
  rfl

/-- A token stops no search if it is live whenever it is looked at. -/
theorem stop?_eq_none_iff :
    token.stop? total = none
      ↔ ∀ scanned < total, scanned % cancellationInterval = 0 →
          token.cancelledAfter scanned = false := by
  simp only [stop?, List.find?_eq_none, List.mem_range, Bool.and_eq_true, beq_iff_eq, not_and,
    Bool.not_eq_true]

/-- A token that stays as it was is looked at once. -/
theorem Settled.stop?_eq (h : token.Settled) (htotal : 0 < total) :
    token.stop? total = if token.cancelledAfter 0 then some 0 else none := by
  by_cases hcancelled : token.cancelledAfter 0 = true
  · rw [if_pos hcancelled, stop?_of_cancelled htotal hcancelled]
  · rw [if_neg hcancelled, stop?_eq_none_iff]
    intro scanned _ _
    exact (h.resolve_left hcancelled) scanned

/-- A token that is cancelled during a long search stops it at the next look. -/
example : stop? ⟨fun scanned => 7 < scanned⟩ 2000 = some 1024 := by decide +kernel

end CancellationToken

namespace Index.Store

variable {s : Store} {query : List Float32} {filter : Filter} {request : SearchRequest}

/-! ## The candidates of a scan -/

/-- The candidate that a neighbor at a position is ranked as. -/
def candidateOf (entry : Neighbor × Nat) : Candidate :=
  .ofDistance entry.1.distance entry.2

/-- The candidates of those records that pass the filter, where `position` is the position of the
first record. -/
def offered (s : Store) (query : List Float32) (filter : Filter) (position : Nat)
    (records : List Record) : List Candidate :=
  ((records.zipIdx position).filter fun entry => filter.accepts entry.1.metadata).map fun entry =>
    .ofDistance (s.metric.distance query entry.1.embedding) entry.2

variable {position : Nat} {records : List Record} {c : Candidate}

theorem offered_cons (record : Record) (rest : List Record) :
    s.offered query filter position (record :: rest)
      = if filter.accepts record.metadata then
          .ofDistance (s.metric.distance query record.embedding) position
            :: s.offered query filter (position + 1) rest
        else s.offered query filter (position + 1) rest := by
  unfold offered
  rw [List.zipIdx_cons, List.filter_cons]
  split <;> rfl

/-- No candidate stands for a record before the first one. -/
theorem le_position_of_mem_offered (h : c ∈ s.offered query filter position records) :
    position ≤ c.position := by
  obtain ⟨⟨record, i⟩, hentry, rfl⟩ := List.mem_map.1 h
  exact (List.mem_zipIdx (List.mem_filter.1 hentry).1).1

/-- No two candidates stand for one record. -/
theorem nodup_offered : (s.offered query filter position records).Nodup := by
  induction records generalizing position with
  | nil => exact List.nodup_nil
  | cons record rest ih =>
    rw [offered_cons]
    split
    · refine List.nodup_cons.2 ⟨?_, ih⟩
      intro hmem
      have hposition : position + 1 ≤ position := le_position_of_mem_offered hmem
      omega
    · exact ih

theorem map_candidateOf_accepted :
    (s.accepted query filter).map candidateOf = s.offered query filter 0 s.records := by
  rw [accepted, List.map_map]
  rfl

/-! ## The scan -/

/-- Where a scan of that many records is stopped, the first of which has position `position`. -/
def stopFrom (request : SearchRequest) (position count : Nat) : Option Nat :=
  (List.range' position count).find? request.stopsBefore

theorem stopFrom_succ (count : Nat) :
    stopFrom request position (count + 1)
      = if request.stopsBefore position then some position
        else stopFrom request (position + 1) count := by
  rw [stopFrom, List.range'_succ, List.find?_cons]
  cases request.stopsBefore position <;> rfl

/-- A scan that is stopped gives nothing of what it has found so far. -/
theorem scan_of_stopFrom_eq_some {stop : Nat} {list : Shortlist}
    (h : stopFrom request position records.length = some stop) :
    s.scan query request position records list = .error (.cancelled stop s.size) := by
  induction records generalizing position list with
  | nil => cases h
  | cons record rest ih =>
    rw [List.length_cons, stopFrom_succ] at h
    rw [scan]
    by_cases hstop : request.stopsBefore position = true
    · rw [if_pos hstop] at h
      cases h
      exact if_pos hstop
    · rw [if_neg hstop] at h
      rw [if_neg hstop]
      exact ih h

/-- A scan that is not stopped offers the candidates of all records. -/
theorem scan_holdsBest {seen : List Candidate} {list : Shortlist}
    (hlive : stopFrom request position records.length = none)
    (hbest : Shortlist.HoldsBest request.maxResults seen list)
    (hseen : ∀ c ∈ seen, c.position < position) :
    ∃ found, s.scan query request position records list = .ok found
      ∧ Shortlist.HoldsBest request.maxResults
          (seen ++ s.offered query request.filter position records) found := by
  induction records generalizing position seen list with
  | nil =>
    refine ⟨list, rfl, ?_⟩
    rw [show s.offered query request.filter position [] = [] from rfl, List.append_nil]
    exact hbest
  | cons record rest ih =>
    rw [List.length_cons, stopFrom_succ] at hlive
    by_cases hstop : request.stopsBefore position = true
    · rw [if_pos hstop] at hlive
      cases hlive
    rw [if_neg hstop] at hlive
    rw [scan, if_neg hstop, offered_cons]
    by_cases haccepted : request.filter.accepts record.metadata = true
    · simp only [if_pos haccepted]
      rw [List.append_cons]
      refine ih hlive (hbest.offer ?_) ?_
      · -- the candidates seen so far stand for earlier records
        intro hmem
        exact Nat.lt_irrefl position (hseen _ hmem)
      · intro c hc
        rw [List.mem_append, List.mem_singleton] at hc
        rcases hc with hc | rfl
        · exact Nat.lt_succ_of_lt (hseen c hc)
        · exact Nat.lt_succ_self position
    · simp only [if_neg haccepted]
      refine ih hlive hbest ?_
      intro c hc
      exact Nat.lt_succ_of_lt (hseen c hc)

/-- Only the token stops a scan. -/
theorem stopFrom_zero (request : SearchRequest) (count : Nat) :
    stopFrom request 0 count = request.token.bind (·.stop? count) := by
  rw [stopFrom, ← List.range_eq_range']
  unfold SearchRequest.stopsBefore
  cases request.token with
  | none =>
    rw [Option.bind_none, List.find?_eq_none]
    intro scanned _
    rw [Bool.and_false]
    exact Bool.false_ne_true
  | some token => rfl

/-! ## The result -/

theorem inOrder_eq (a b : Neighbor × Nat) :
    inOrder a b = ((candidateOf a).compare (candidateOf b)).isLE := rfl

/-- The sorted neighbors are ranked as the candidates that a scan offers. -/
theorem perm_candidates :
    (((s.accepted query filter).mergeSort inOrder).map candidateOf).Perm
      (s.offered query filter 0 s.records) := by
  rw [← map_candidateOf_accepted]
  exact (List.mergeSort_perm _ _).map candidateOf

/-- Sorting the neighbors sorts their candidates. -/
theorem ordered_candidates :
    (((s.accepted query filter).mergeSort inOrder).map candidateOf).Pairwise
      fun a b => a.compare b = .lt := by
  have hsorted : ((s.accepted query filter).mergeSort inOrder).Pairwise
      fun a b => inOrder a b = true := by
    refine List.pairwise_mergeSort ?_ ?_ _
    · intro a b c hab hbc
      rw [inOrder_eq] at *
      exact Std.TransCmp.isLE_trans hab hbc
    · intro a b
      rw [inOrder_eq, inOrder_eq, Bool.or_eq_true]
      exact Candidate.isLE_or_isLE _ _
  have hle : (((s.accepted query filter).mergeSort inOrder).map candidateOf).Pairwise
      fun a b => (a.compare b).isLE = true :=
    List.pairwise_map.2 hsorted
  -- candidates that are not the same cannot be equally near and at one position
  have hnodup : (((s.accepted query filter).mergeSort inOrder).map candidateOf).Nodup :=
    perm_candidates.nodup_iff.2 nodup_offered
  exact (hle.and hnodup).imp fun ⟨hab, hne⟩ => Candidate.compare_lt_of_isLE hne hab

/-- A candidate stands for the neighbor that it was made from. -/
theorem neighbor?_candidateOf (hvalid : s.Valid) {entry : Neighbor × Nat}
    (h : entry ∈ s.accepted query filter) : s.neighbor? (candidateOf entry) = some entry.1 := by
  obtain ⟨⟨record, i⟩, hentry, rfl⟩ := List.mem_map.1 h
  have hrecord : s.records[i]? = some record :=
    List.mem_zipIdx_iff_getElem?.1 (List.mem_filter.1 hentry).1
  have hlookup : s.record? i = some record := by
    rw [hvalid.record?_eq_getElem?, hrecord]
  simp only [neighbor?, candidateOf, Candidate.ofDistance, Candidate.distance, hlookup,
    Option.map_some, Float32.ofBits_toBits]

theorem filterMap_neighbor? (hvalid : s.Valid) {entries : List (Neighbor × Nat)}
    (h : ∀ entry ∈ entries, entry ∈ s.accepted query filter) :
    (entries.map candidateOf).filterMap s.neighbor? = entries.map Prod.fst := by
  induction entries with
  | nil => rfl
  | cons entry rest ih =>
    rw [List.map_cons, List.map_cons, List.filterMap_cons,
      neighbor?_candidateOf hvalid (h entry List.mem_cons_self),
      ih fun e he => h e (List.mem_cons_of_mem _ he)]

/-- The list that a scan ends with stands for the front of the ranking. -/
theorem neighbors_of_holdsBest (hvalid : s.Valid) {maxResults : Nat} {found : Shortlist}
    (h : Shortlist.HoldsBest maxResults (s.offered query filter 0 s.records) found) :
    found.toList.filterMap s.neighbor? = (s.ranking query filter).take maxResults := by
  rw [h.toList_eq perm_candidates ordered_candidates, ← List.map_take,
    filterMap_neighbor? hvalid, ranking, List.map_take]
  intro entry hentry
  exact List.mem_mergeSort.1 (List.mem_of_mem_take hentry)

/-! ## Searches -/

theorem records_ne_nil (h : s.Valid) : s.records ≠ [] := by
  rw [← List.length_pos_iff, h.length_records]
  exact h.nonempty

/-- What a scan from the first record on comes to, whenever the token is cancelled. -/
theorem scan_eq (request : SearchRequest) (hvalid : s.Valid) :
    (do
      let list ← s.scan query request 0 s.records ∅
      Except.ok (⟨list.toList.filterMap s.neighbor?⟩ : SearchResult))
      = match request.token.bind (·.stop? s.size) with
        | some scanned => .error (.cancelled scanned s.size)
        | none => .ok ⟨(s.ranking query request.filter).take request.maxResults⟩ := by
  have hstop : stopFrom request 0 s.records.length = request.token.bind (·.stop? s.size) := by
    rw [hvalid.length_records]
    exact stopFrom_zero request s.size
  cases htoken : request.token.bind (·.stop? s.size) with
  | some scanned =>
    rw [scan_of_stopFrom_eq_some (hstop.trans htoken)]
    rfl
  | none =>
    have hscan : ∃ found, s.scan query request 0 s.records ∅ = .ok found
        ∧ Shortlist.HoldsBest request.maxResults
            ([] ++ s.offered query request.filter 0 s.records) found :=
      scan_holdsBest (hstop.trans htoken) (Shortlist.holdsBest_empty _)
        fun _ hc => absurd hc List.not_mem_nil
    obtain ⟨found, hscan, hbest⟩ := hscan
    rw [hscan, ok_bind, neighbors_of_holdsBest hvalid hbest]

/-- A search gives what sorting all records gives: the same errors in the same order, and else
exactly the nearest records that pass the filter, equally near ones in index order. -/
theorem search_eq_searchBySorting (hs : s.Reachable) (query : List Float32) (maxResults : Nat)
    (filter : Filter) (token : Option CancellationToken)
    (htoken : ∀ t ∈ token, t.Settled) :
    s.search query { maxResults, filter, token }
      = s.searchBySorting query maxResults filter (token.any (·.cancelledAfter 0)) := by
  unfold search searchBySorting checkMaxResults Dimension.check checkQuery
  by_cases hzero : maxResults = 0
  · rw [if_pos hzero, if_pos hzero]
    rfl
  · rw [if_neg hzero, if_neg hzero, ok_bind]
    by_cases hlength : query.length = s.dimension.toNat
    · rw [if_pos hlength, if_neg (not_not_intro hlength), ok_bind]
      by_cases hfinite : query.all Float32.isFinite = true
      · rw [if_pos hfinite, if_neg (not_not_intro hfinite), ok_bind]
        rw [scan_eq { maxResults, filter, token } hs.valid]
        cases token with
        | none => rfl
        | some token =>
          have hstop := (htoken token rfl).stop?_eq hs.valid.nonempty
          dsimp only [Option.bind_some, Option.any_some]
          rw [show token.stop? s.size = _ from hstop]
          by_cases hcancelled : token.cancelledAfter 0 = true
          · rw [if_pos hcancelled, if_pos hcancelled]
          · rw [if_neg hcancelled, if_neg hcancelled]
      · rw [if_neg hfinite, if_pos hfinite]
        rfl
    · rw [if_neg hlength, if_pos hlength]
      rfl

/-- Two records at one distance, and a nearer one after them. -/
def threeRecords : Store :=
  ⟨⟨1, by decide⟩, .squaredL2, "", #["a", "b", "c"], #[1, 1, 0]⟩

/-- Without the nearer record, the two others come in index order. -/
theorem search_threeRecords :
    threeRecords.Reachable ∧ CancellationToken.live.Settled
    ∧ threeRecords.search [0]
        { maxResults := 2, filter := .deny (.ofList ["c"]), token := some .live }
      = threeRecords.searchBySorting [0] 2 (.deny (.ofList ["c"])) false
    ∧ threeRecords.searchBySorting [0] 2 (.deny (.ofList ["c"])) false
      = .ok ⟨[⟨"a", 1⟩, ⟨"b", 1⟩]⟩ := by
  have hbuilt : Store.ofRecords .squaredL2 "" [("a", [1]), ("b", [1]), ("c", [0])]
      = .ok threeRecords := rfl
  have hs : threeRecords.Reachable := .built hbuilt
  have hlive : CancellationToken.live.Settled := .inr fun _ => rfl
  have hsearch := search_eq_searchBySorting hs [0] 2 (.deny (.ofList ["c"])) (some .live)
    (by
      rintro t ⟨⟩
      exact hlive)
  exact ⟨hs, hlive, hsearch, hsearch.symm.trans rfl⟩

end Index.Store

end NeighborSearch
