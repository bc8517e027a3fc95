import NeighborSearch.Proofs.Searcher.Ready

/-!
# Filtering before ranking

A search skips the records that its filter refuses before it ranks any, and keeps no more of the
others than it is asked for. That comes to the same as ranking all records and then leaving out
those that the filter refuses. All that counts of a filter is which metadata it accepts, and of a
list of metadata which strings occur in it.
-/

namespace NeighborSearch

/-! ## Filters of lists -/

namespace Filter

variable {allowed denied : List String} {filter : Filter} {metadata : String}

/-- What passes the filter of two lists: the strings of the first one, or all if it is empty, but
none of the second one. -/
theorem accepts_of_ofLists (h : ofLists allowed denied = .ok filter) :
    filter.accepts metadata = true
      ↔ (allowed = [] ∨ metadata ∈ allowed) ∧ metadata ∉ denied := by
  cases allowed with
  | nil =>
    cases denied with
    | nil =>
      cases h
      simp [accepts]
    | cons first rest =>
      cases h
      rw [accepts, Std.TreeSet.contains_ofList, Bool.not_eq_true', ← Bool.not_eq_true,
        List.contains_iff_mem]
      simp
  | cons first rest =>
    cases denied with
    | nil =>
      cases h
      rw [accepts, Std.TreeSet.contains_ofList, List.contains_iff_mem]
      simp
    | cons other more => cases h

/-- Lists in which the same strings occur are refused together, or give filters that accept the
same metadata. -/
theorem ofLists_of_same {allowed' denied' : List String}
    (hallowed : ∀ metadata, metadata ∈ allowed' ↔ metadata ∈ allowed)
    (hdenied : ∀ metadata, metadata ∈ denied' ↔ metadata ∈ denied) :
    (∃ error, ofLists allowed' denied' = .error error ∧ ofLists allowed denied = .error error)
    ∨ ∃ filter' filter, ofLists allowed' denied' = .ok filter' ∧ ofLists allowed denied = .ok filter
        ∧ filter'.accepts = filter.accepts := by
  have hnil {l l' : List String} (h : ∀ metadata, metadata ∈ l' ↔ metadata ∈ l) :
      l' = [] ↔ l = [] := by
    simp only [List.eq_nil_iff_forall_not_mem, h]
  have hboth : (allowed' ≠ [] ∧ denied' ≠ []) ↔ (allowed ≠ [] ∧ denied ≠ []) := by
    rw [Ne, Ne, hnil hallowed, hnil hdenied]
  rcases Searcher.ofLists_eq allowed denied with ⟨hrefused, hlists⟩ | ⟨hfree, filter, hlists⟩
  · rcases Searcher.ofLists_eq allowed' denied' with ⟨_, hlists'⟩ | ⟨hfree', _⟩
    · exact .inl ⟨_, hlists', hlists⟩
    · exact absurd (hboth.2 hrefused) hfree'
  · rcases Searcher.ofLists_eq allowed' denied' with ⟨hrefused', _⟩ | ⟨_, filter', hlists'⟩
    · exact absurd (hboth.1 hrefused') hfree
    · refine .inr ⟨filter', filter, hlists', hlists, ?_⟩
      funext metadata
      rw [Bool.eq_iff_iff, accepts_of_ofLists hlists, accepts_of_ofLists hlists', hnil hallowed,
        hallowed, hdenied]

end Filter

namespace Index.Store

variable {s : Store} {query : List Float32} {filter other : Filter} {maxResults : Nat}

/-! ## What counts of a filter -/

/-- A scan with another filter that accepts the same metadata keeps the same candidates. -/
theorem scan_congr (h : filter.accepts = other.accepts) (token : Option CancellationToken)
    (position : Nat) (records : List Record) (list : Shortlist) :
    s.scan query { maxResults, filter, token } position records list
      = s.scan query { maxResults, filter := other, token } position records list := by
  induction records generalizing position list with
  | nil => rfl
  | cons record rest ih =>
    have hstop : SearchRequest.stopsBefore { maxResults, filter, token } position
        = SearchRequest.stopsBefore { maxResults, filter := other, token } position := rfl
    rw [scan, scan, hstop]
    dsimp only
    rw [h]
    split
    · rfl
    · exact ih _ _

theorem search_congr (h : filter.accepts = other.accepts) (token : Option CancellationToken) :
    s.search query { maxResults, filter, token }
      = s.search query { maxResults, filter := other, token } := by
  unfold search
  dsimp only
  rw [scan_congr h]

/-! ## The ranking of some records -/

/-- The records that pass a filter, among all records. -/
theorem accepted_eq_filter (s : Store) (query : List Float32) (filter : Filter) :
    s.accepted query filter
      = (s.accepted query .all).filter fun entry => filter.accepts entry.1.metadata := by
  unfold accepted
  rw [List.filter_map, List.filter_filter]
  congr 1
  refine List.filter_congr fun entry _ => ?_
  exact (Bool.and_true _).symm

/-- Sorted neighbors have candidates in order. -/
theorem pairwise_mergeSort_accepted (s : Store) (query : List Float32) (filter : Filter) :
    ((s.accepted query filter).mergeSort inOrder).Pairwise
      fun a b => (candidateOf a).compare (candidateOf b) = .lt :=
  List.pairwise_map.1 ordered_candidates

/-- Sorting what is left comes to the same as leaving out of what is sorted. -/
theorem mergeSort_accepted (s : Store) (query : List Float32) (filter : Filter) :
    (s.accepted query filter).mergeSort inOrder
      = ((s.accepted query .all).mergeSort inOrder).filter
          fun entry => filter.accepts entry.1.metadata := by
  refine List.Perm.eq_of_pairwise ?_ (pairwise_mergeSort_accepted s query filter)
    ((pairwise_mergeSort_accepted s query .all).filter _) ?_
  · intro a b _ _ hab hba
    exact absurd hba (Candidate.not_compare_lt_of_lt hab)
  · have hsorted := (List.mergeSort_perm (s.accepted query .all) inOrder).filter
      fun entry => filter.accepts entry.1.metadata
    rw [← accepted_eq_filter] at hsorted
    exact (List.mergeSort_perm _ _).trans hsorted.symm

/-- The ranking under a filter is the ranking of all records without those that the filter
refuses. -/
theorem ranking_eq_filter (s : Store) (query : List Float32) (filter : Filter) :
    s.ranking query filter
      = (s.ranking query .all).filter fun neighbor => filter.accepts neighbor.metadata := by
  unfold ranking
  rw [mergeSort_accepted, List.filter_map]
  rfl

theorem length_ranking_all (hvalid : s.Valid) (query : List Float32) :
    (s.ranking query .all).length = s.size := by
  have hall : (s.records.zipIdx.filter fun entry => Filter.all.accepts entry.1.metadata)
      = s.records.zipIdx :=
    List.filter_eq_self.2 fun _ _ => rfl
  rw [ranking, List.length_map, List.length_mergeSort, accepted, hall, List.length_map,
    List.length_zipIdx, hvalid.length_records]

/-! ## Searches under the filter of two lists -/

/-- A search that fits the store and is not cancelled finds the front of the ranking. -/
theorem search_of_fits (hvalid : s.Valid) (hlength : query.length = s.dimension.toNat)
    (hfinite : query.all Float32.isFinite = true) (hmax : 0 < maxResults) (filter : Filter)
    {token : Option CancellationToken}
    (htoken : ∀ t ∈ token, ∀ scanned, t.cancelledAfter scanned = false) :
    s.search query { maxResults, filter, token }
      = .ok ⟨(s.ranking query filter).take maxResults⟩ := by
  have hlive : token.bind (·.stop? s.size) = none := by
    rw [Option.bind_eq_none_iff]
    intro t ht
    exact CancellationToken.stop?_eq_none_iff.2 fun scanned _ _ => htoken t ht scanned
  rw [search_of_pos hvalid query hmax filter token, if_neg (not_not_intro hlength),
    if_neg (not_not_intro hfinite), hlive]

/-- A search for as many results as there are records ranks all of them. -/
theorem search_all (hvalid : s.Valid) (hlength : query.length = s.dimension.toNat)
    (hfinite : query.all Float32.isFinite = true) :
    s.search query { maxResults := s.size } = .ok ⟨s.ranking query .all⟩ := by
  have hpos : 0 < s.size := hvalid.nonempty
  rw [search_of_fits hvalid hlength hfinite hpos .all fun t ht => absurd ht (Option.not_mem_none t),
    List.take_of_length_le]
  exact Nat.le_of_eq (length_ranking_all hvalid query)

/-- An allow list and a deny list are refused if and only if both hold a string. Otherwise a search
under their filter finds the first of those records in the ranking of the whole index whose
metadata is on the allow list, unless that is empty, and not on the deny list. The order of the two
lists and how often they hold a string make no difference to any search. -/
theorem search_ofLists (allowed denied : List String) :
    ((∃ error, Filter.ofLists allowed denied = .error error) ↔ allowed ≠ [] ∧ denied ≠ [])
    ∧ (∀ filter, Filter.ofLists allowed denied = .ok filter →
      ∀ s : Store, s.Reachable →
      ∀ query : List Float32, query.length = s.dimension.toNat →
        query.all Float32.isFinite = true →
      ∀ maxResults, 0 < maxResults →
      ∀ token : Option CancellationToken,
        (∀ t ∈ token, ∀ scanned, t.cancelledAfter scanned = false) →
        ∃ whole, s.search query { maxResults := s.size } = .ok whole
          ∧ s.search query { maxResults, filter, token }
            = .ok ⟨(whole.neighbors.filter fun neighbor =>
                (allowed = [] ∨ neighbor.metadata ∈ allowed)
                  ∧ neighbor.metadata ∉ denied).take maxResults⟩)
    ∧ ∀ allowed' denied' : List String,
      (∀ metadata, metadata ∈ allowed' ↔ metadata ∈ allowed) →
      (∀ metadata, metadata ∈ denied' ↔ metadata ∈ denied) →
      ∀ (s : Store) (query : List Float32) (maxResults : Nat) (token : Option CancellationToken),
        (do
          let filter ← Filter.ofLists allowed' denied'
          s.search query { maxResults, filter, token })
        = (do
          let filter ← Filter.ofLists allowed denied
          s.search query { maxResults, filter, token }) := by
  refine ⟨?_, ?_, ?_⟩
  · rcases Searcher.ofLists_eq allowed denied with ⟨hboth, hlists⟩ | ⟨hfree, filter, hlists⟩
    · exact ⟨fun _ => hboth, fun _ => ⟨_, hlists⟩⟩
    · rw [hlists]
      exact ⟨nofun, fun h => absurd h hfree⟩
  · intro filter hlists s hs query hlength hfinite maxResults hmax token htoken
    refine ⟨_, search_all hs.valid hlength hfinite, ?_⟩
    rw [search_of_fits hs.valid hlength hfinite hmax filter htoken, ranking_eq_filter]
    congr 3
    refine List.filter_congr fun neighbor _ => ?_
    rw [Bool.eq_iff_iff, decide_eq_true_iff]
    exact Filter.accepts_of_ofLists hlists
  · intro allowed' denied' hallowed hdenied s query maxResults token
    rcases Filter.ofLists_of_same hallowed hdenied with
      ⟨error, hlists', hlists⟩ | ⟨filter', filter, hlists', hlists, haccepts⟩
    · rw [hlists, hlists']
    · rw [hlists, hlists', ok_bind, ok_bind]
      exact search_congr haccepts token

/-- Four records with two labels, in which the nearest two are equally near. -/
def repeatedLabels : Store :=
  ⟨⟨1, Nat.one_pos⟩, .squaredL2, "", #["a", "b", "b", "a"], #[2, 1, 0, 0]⟩

/-- With one of the labels denied twice, both records of the other one are found. -/
theorem search_repeatedLabels :
    Filter.ofLists [] ["b", "b"] = .ok (.deny (.ofList ["b", "b"]))
    ∧ repeatedLabels.Reachable
    ∧ repeatedLabels.search [0] { maxResults := 4 }
      = .ok ⟨[⟨"b", 0⟩, ⟨"a", 0⟩, ⟨"b", 1⟩, ⟨"a", 4⟩]⟩
    ∧ repeatedLabels.search [0] { maxResults := 3, filter := .deny (.ofList ["b", "b"]) }
      = .ok ⟨[⟨"a", 0⟩, ⟨"a", 4⟩]⟩
    ∧ repeatedLabels.search [0] { maxResults := 3, filter := .deny (.ofList ["b"]) }
      = .ok ⟨[⟨"a", 0⟩, ⟨"a", 4⟩]⟩ := by
  have hbuilt : Store.ofRecords .squaredL2 "" [("a", [2]), ("b", [1]), ("b", [0]), ("a", [0])]
      = .ok repeatedLabels := rfl
  have hs : repeatedLabels.Reachable := .built hbuilt
  have hlists : Filter.ofLists [] ["b", "b"] = .ok (.deny (.ofList ["b", "b"])) := rfl
  have hwhole : repeatedLabels.search [0] { maxResults := 4 }
      = .ok ⟨[⟨"b", 0⟩, ⟨"a", 0⟩, ⟨"b", 1⟩, ⟨"a", 4⟩]⟩ := by decide +kernel
  obtain ⟨_, hfind, hsame⟩ := search_ofLists [] ["b", "b"]
  obtain ⟨whole, hall, hfound⟩ := hfind _ hlists repeatedLabels hs [0] rfl (by decide +kernel) 3
    (by decide) none nofun
  obtain rfl := Except.ok.inj (hwhole.symm.trans hall)
  have honce := hsame [] ["b"] (fun _ => .rfl) (by simp) repeatedLabels [0] 3 none
  exact ⟨hlists, hs, hwhole, hfound, honce.trans hfound⟩

end Index.Store

end NeighborSearch
