import NeighborSearch.Proofs.Ranking.Filtering
import NeighborSearch.Proofs.Single.Unsigned

/-!
# Distances are not negative

Nothing keeps a distance of finite vectors from overflowing, and on the way to it infinities may
cancel. Still it is always a number without the sign bit: a sum of squares by the signs of its
terms, and one minus a similarity by the positive part that is taken of it. So the total order of
bit patterns, by which a search ranks, is the numeric order of the distances, and records at equal
distances are ranked by their positions alone.
-/

namespace NeighborSearch

open Single (Unsigned totalCompare)

variable {a b : List Float32}

/-! ## Distance functions -/

theorem unsigned_squaredL2 (ha : a.all Float32.isFinite = true)
    (hb : b.all Float32.isFinite = true) : Unsigned (squaredL2 a b) := by
  apply Single.unsigned_laneSum
  intro term hterm
  rw [List.mem_iff_getElem?] at hterm
  -- a term comes from two components at one place, which are both finite
  obtain ⟨i, hi⟩ := hterm
  obtain ⟨x, y, hx, hy, rfl⟩ := List.getElem?_zipWith_eq_some.1 hi
  exact Single.unsigned_square_sub (List.all_eq_true.1 ha x (List.mem_of_getElem? hx))
    (List.all_eq_true.1 hb y (List.mem_of_getElem? hy))

theorem unsigned_positivePart (x : Float32) : Unsigned (positivePart x) := by
  unfold positivePart
  split
  case isTrue hpos => exact Single.unsigned_of_pos hpos
  case isFalse => exact Single.unsigned_zero

/-- The distance of finite vectors under each metric. -/
theorem Metric.unsigned_distance (metric : Metric) (ha : a.all Float32.isFinite = true)
    (hb : b.all Float32.isFinite = true) : Unsigned (metric.distance a b) := by
  cases metric with
  | squaredL2 => exact unsigned_squaredL2 ha hb
  | l2 => exact (unsigned_squaredL2 ha hb).sqrt
  | cosine => exact unsigned_positivePart _

/-- Clamping leaves nothing above one, though what is not a number stays so. -/
theorem not_one_lt_clampToUnit (x : Float32) : ¬1 < clampToUnit x := by
  unfold clampToUnit
  split
  case isTrue => decide
  case isFalse =>
    split
    case isTrue => decide
    case isFalse hle => exact hle

theorem not_one_lt_cosineSimilarity (a b : List Float32) : ¬1 < cosineSimilarity a b := by
  unfold cosineSimilarity
  dsimp only
  split
  case isTrue => decide
  case isFalse => exact not_one_lt_clampToUnit _

/-! ## Distances of a store -/

namespace Index.Store

variable {s : Store} {query : List Float32} {record : Record} {neighbor : Neighbor}
variable {request : SearchRequest} {result : SearchResult} {filter : Filter}

theorem unsigned_distance_record (hvalid : s.Valid) (hquery : query.all Float32.isFinite = true)
    (hrecord : record ∈ s.records) : Unsigned (s.metric.distance query record.embedding) :=
  s.metric.unsigned_distance hquery (List.all_eq_true.2 (hvalid.of_mem_records hrecord).2)

/-- Numeric comparison of distances, and then of positions, ranks unsigned distances. -/
theorem compare_ofDistance_eq_lt {d d' : Float32} (hd : Unsigned d) (hd' : Unsigned d')
    (i j : Nat) :
    (Candidate.ofDistance d i).compare (.ofDistance d' j) = .lt
      ↔ d < d' ∨ (d == d') = true ∧ i < j := by
  rw [Single.lt_iff_of_unsigned hd hd', Single.beq_iff_of_unsigned hd hd', ← Nat.compare_eq_lt]
  exact Ordering.then_eq_lt

theorem unsigned_of_mem_ranking (hvalid : s.Valid) (hquery : query.all Float32.isFinite = true)
    (h : neighbor ∈ s.ranking query filter) : Unsigned neighbor.distance := by
  obtain ⟨entry, hentry, rfl⟩ := List.mem_map.1 h
  obtain ⟨⟨record, i⟩, hrecord, rfl⟩ := List.mem_map.1 (List.mem_mergeSort.1 hentry)
  have hmem : record ∈ s.records :=
    List.fst_mem_of_mem_zipIdx (List.mem_filter.1 hrecord).1
  exact unsigned_distance_record hvalid hquery hmem

/-- A ranking is sorted by the total order of the distances. -/
theorem pairwise_ranking (s : Store) (query : List Float32) (filter : Filter) :
    (s.ranking query filter).Pairwise
      fun a b => (totalCompare a.distance.toBits b.distance.toBits).isLE = true := by
  refine List.pairwise_map.2 ((pairwise_mergeSort_accepted s query filter).imp ?_)
  intro a b hab
  rcases Ordering.then_eq_lt.1 hab with hlt | ⟨heq, _⟩
  · exact Ordering.isLE_of_eq_lt hlt
  · exact Ordering.isLE_of_eq_eq heq

/-! ## Results -/

/-- A scan that comes to its end would have come to it without a token. -/
theorem scan_of_ok {position : Nat} {records : List Record} {list found : Shortlist}
    (h : s.scan query request position records list = .ok found) :
    s.scan query { request with token := none } position records list = .ok found := by
  induction records generalizing position list with
  | nil => exact h
  | cons record rest ih =>
    rw [scan] at h ⊢
    split at h
    case isTrue => cases h
    case isFalse =>
      have hlive : ¬SearchRequest.stopsBefore { request with token := none } position = true := by
        rw [SearchRequest.stopsBefore, Bool.and_false]
        exact Bool.false_ne_true
      rw [if_neg hlive]
      exact ih h

theorem search_of_ok (h : s.search query request = .ok result) :
    s.search query { request with token := none } = .ok result := by
  unfold search at h ⊢
  simp only [bind_eq_ok_iff] at h ⊢
  obtain ⟨u, hmax, v, hlength, w, hquery, list, hscan, hresult⟩ := h
  exact ⟨u, hmax, v, hlength, w, hquery, list, scan_of_ok hscan, hresult⟩

theorem maxResults_ne_zero_of_ok (h : s.search query request = .ok result) :
    request.maxResults ≠ 0 := by
  intro hzero
  rw [search, checkMaxResults, if_pos hzero] at h
  cases h

/-- The neighbors that a search gives have unsigned distances and stand in their numeric order. -/
theorem neighbors_numeric (hvalid : s.Valid) (h : s.search query request = .ok result) :
    (∀ neighbor ∈ result.neighbors, Unsigned neighbor.distance)
      ∧ result.neighbors.Pairwise fun a b => a.distance ≤ b.distance := by
  -- the search has checked its query, and found the front of the ranking
  obtain ⟨_, hquery, rfl⟩ := (search_eq_ok_iff hvalid (maxResults_ne_zero_of_ok h)
    request.filter).1 (search_of_ok h)
  have hunsigned : ∀ neighbor ∈ (s.ranking query request.filter).take request.maxResults,
      Unsigned neighbor.distance :=
    fun _ hneighbor => unsigned_of_mem_ranking hvalid hquery (List.mem_of_mem_take hneighbor)
  refine ⟨hunsigned, ?_⟩
  refine ((pairwise_ranking s query request.filter).sublist (List.take_sublist _ _)).imp_of_mem ?_
  intro a b ha hb hle
  exact (Single.le_iff_of_unsigned (hunsigned a ha) (hunsigned b hb)).2 hle

/-- The distance of two finite vectors is a number that is not below zero, under each metric, and
its pattern has no sign bit: it is at most that of infinity. Nothing of this hangs on which zero a
maximum of two zeros is, as no similarity leaves a zero with the sign bit when it is taken from
one. So whatever a finite query is compared with in a store that is read or built, the total order
of two distances is their numeric order, distances tie exactly if they are equal numbers, and
equal distances are ranked by position. What a search gives is sorted as numbers are. -/
theorem ranking_numeric :
    (∀ (metric : Metric) (a b : List Float32),
      a.all Float32.isFinite = true → b.all Float32.isFinite = true →
        (metric.distance a b).toBits ≤ 0x7f800000
        ∧ (metric.distance a b).isNaN = false
        ∧ 0 ≤ metric.distance a b)
    ∧ (∀ a b : List Float32, (1 - cosineSimilarity a b).isNaN = true
        ∨ (1 - cosineSimilarity a b).toBits ≤ 0x7f800000)
    ∧ ∀ s : Store, s.Reachable →
      ∀ query : List Float32, query.all Float32.isFinite = true →
        (∀ record ∈ s.records, ∀ other ∈ s.records,
          let d := s.metric.distance query record.embedding
          let d' := s.metric.distance query other.embedding
          ((totalCompare d.toBits d'.toBits).isLE = true ↔ d ≤ d')
          ∧ (totalCompare d.toBits d'.toBits = .eq ↔ (d == d') = true)
          ∧ ∀ i j, (Candidate.ofDistance d i).compare (.ofDistance d' j) = .lt
              ↔ d < d' ∨ (d == d') = true ∧ i < j)
        ∧ ∀ request result, s.search query request = .ok result →
            (∀ neighbor ∈ result.neighbors, neighbor.distance.toBits ≤ 0x7f800000)
            ∧ result.neighbors.Pairwise fun a b => a.distance ≤ b.distance := by
  refine ⟨?_, ?_, ?_⟩
  · intro metric a b ha hb
    have hdistance : Unsigned (metric.distance a b) := metric.unsigned_distance ha hb
    exact ⟨hdistance, hdistance.isNaN, hdistance.nonneg⟩
  · intro a b
    exact Single.isNaN_or_unsigned_one_sub (not_one_lt_cosineSimilarity a b)
  · intro s hs query hquery
    refine ⟨?_, fun _ _ => neighbors_numeric hs.valid⟩
    intro record hrecord other hother
    have hd := unsigned_distance_record hs.valid hquery hrecord
    have hd' := unsigned_distance_record hs.valid hquery hother
    exact ⟨(Single.le_iff_of_unsigned hd hd').symm, (Single.beq_iff_of_unsigned hd hd').symm,
      compare_ofDistance_eq_lt hd hd'⟩

/-- Two records of the largest components there are, the second one with a negative component. -/
def farRecords : Store :=
  ⟨⟨2, Nat.two_pos⟩, .cosine, "", #["a", "b"],
    #[.ofBits 0x7f7fffff, .ofBits 0x7f7fffff, .ofBits 0x7f7fffff, .ofBits 0xff7fffff]⟩

/-- The products of the second record with the first one overflow and cancel, so that their
similarity is not a number. Their distance is zero, and the two records come in index order. -/
theorem ranking_numeric_farRecords :
    farRecords.Reachable
    ∧ [Float32.ofBits 0x7f7fffff, .ofBits 0x7f7fffff].all Float32.isFinite = true
    ∧ (cosineSimilarity [.ofBits 0x7f7fffff, .ofBits 0x7f7fffff]
        [.ofBits 0x7f7fffff, .ofBits 0xff7fffff]).isNaN = true
    ∧ 0 ≤ Metric.cosine.distance [.ofBits 0x7f7fffff, .ofBits 0x7f7fffff]
        [.ofBits 0x7f7fffff, .ofBits 0xff7fffff]
    ∧ ∃ result, farRecords.search [.ofBits 0x7f7fffff, .ofBits 0x7f7fffff] { maxResults := 2 }
        = .ok result
      ∧ result.neighbors.map Neighbor.metadata = ["a", "b"]
      ∧ result.neighbors.Pairwise fun a b => a.distance ≤ b.distance := by
  have hbuilt : Store.ofRecords .cosine "" [("a", [.ofBits 0x7f7fffff, .ofBits 0x7f7fffff]),
      ("b", [.ofBits 0x7f7fffff, .ofBits 0xff7fffff])] = .ok farRecords := rfl
  have hs : farRecords.Reachable := .built hbuilt
  have hquery : [Float32.ofBits 0x7f7fffff, .ofBits 0x7f7fffff].all Float32.isFinite = true := rfl
  obtain ⟨hdistance, _, hranked⟩ := ranking_numeric
  refine ⟨hs, hquery, rfl, (hdistance .cosine _ _ hquery rfl).2.2, _, rfl, rfl, ?_⟩
  exact ((hranked _ hs _ hquery).2 { maxResults := 2 } _ rfl).2

end Index.Store

end NeighborSearch
