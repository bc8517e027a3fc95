import NeighborSearch.Proofs.Distance.Exact
import NeighborSearch.Proofs.Distance.Symmetry

/-!
# Exact copies come first

A record that is equal to the query, component by component, is at distance zero: the zero without
the sign bit, which no distance is below. So the nearest neighbor of a query of which there is a copy
is at distance zero, and of all records at distance zero it is the first.
-/

namespace NeighborSearch

open Single (Whole Unsigned totalCompare)

/-! ## The distance of a copy -/

section Copy

variable {x y : Float32} {a b : List Float32}

/-- Two vectors that are equal as numbers, component by component. Zeros of both signs are equal. -/
def Copies (a b : List Float32) : Prop :=
  List.Forall₂ (fun x y => (x == y) = true) a b

theorem isFinite_of_beq (h : (x == y) = true) (hy : y.isFinite = true) : x.isFinite = true := by
  obtain ⟨_, _, rfl | ⟨rfl, _⟩ | ⟨rfl, _⟩⟩ := Float32.beq_iff_ne_nan_and_eq.1 h
  · exact hy
  · exact Single.isFinite_zero
  · decide

theorem Copies.all_isFinite (h : Copies a b) (hb : b.all Float32.isFinite = true) :
    a.all Float32.isFinite = true := by
  induction h with
  | nil => rfl
  | cons hxy _ ih =>
    rw [List.all_cons, Bool.and_eq_true] at hb ⊢
    exact ⟨isFinite_of_beq hxy hb.1, ih hb.2⟩

/-- Equal numbers have no squared difference. -/
theorem whole_squaredDifference_of_beq (h : (x == y) = true) (hy : y.isFinite = true) :
    Whole (squaredDifference x y) 0 := by
  have hx := isFinite_of_beq h hy
  have hvalue : Single.value x - Single.value y = (0 : ℤ) := by
    rw [(Single.beq_iff_value hx hy).1 h, sub_self, Int.cast_zero]
  have hd : Whole (x - y) 0 := (hvalue ▸ Single.roundsTo_sub hx hy).whole (by decide)
  exact hd.mul hd (by decide)

theorem Copies.forall₂_whole (h : Copies a b) (hb : b.all Float32.isFinite = true) :
    List.Forall₂ Whole (List.zipWith squaredDifference a b) (List.replicate a.length 0) := by
  induction h with
  | nil => exact .nil
  | cons hxy _ ih =>
    rw [List.all_cons, Bool.and_eq_true] at hb
    exact .cons (whole_squaredDifference_of_beq hxy hb.1) (ih hb.2)

theorem Copies.squaredL2_eq_zero (h : Copies a b) (hb : b.all Float32.isFinite = true) :
    squaredL2 a b = 0 := by
  have hwhole := Single.whole_laneSum (h.forall₂_whole hb)
    (fun k hk => (List.eq_of_mem_replicate hk).ge) (by rw [List.sum_replicate, smul_zero]; decide)
  rw [List.sum_replicate, smul_zero] at hwhole
  exact hwhole.eq_ofInt (unsigned_squaredL2 (h.all_isFinite hb) hb) (by decide)

/-- A copy is at distance zero. -/
theorem Copies.distance_eq_zero (h : Copies a b) (hb : b.all Float32.isFinite = true)
    {metric : Metric} (hmetric : metric ≠ .cosine) : metric.distance a b = 0 := by
  cases metric with
  | squaredL2 => exact h.squaredL2_eq_zero hb
  | l2 =>
    show (squaredL2 a b).sqrt = 0
    rw [h.squaredL2_eq_zero hb]
    decide
  | cosine => exact absurd rfl hmetric

end Copy

/-! ## The nearest neighbor -/

namespace Index.Store

variable {s : Store} {query : List Float32} {filter : Filter} {record : Record} {i : Nat}

/-- The position of the first of those records that pass the filter and are at distance zero. -/
structure IsNearestZero (s : Store) (query : List Float32) (filter : Filter) (position : Nat)
    (record : Record) : Prop where
  found : s.records[position]? = some record
  accepted : filter.accepts record.metadata = true
  distance : (s.metric.distance query record.embedding).toBits = 0
  first : ∀ i < position, ∀ other, s.records[i]? = some other →
    filter.accepts other.metadata = true → (s.metric.distance query other.embedding).toBits ≠ 0

theorem toBits_zero : (0 : Float32).toBits = 0 := by
  decide

theorem mem_accepted (query : List Float32) (hrecord : s.records[i]? = some record)
    (haccepts : filter.accepts record.metadata = true) :
    (⟨record.metadata, s.metric.distance query record.embedding⟩, i)
      ∈ s.accepted query filter := by
  refine List.mem_map.2 ⟨(record, i), ?_, rfl⟩
  exact List.mem_filter.2 ⟨List.mem_zipIdx_iff_getElem?.2 hrecord, haccepts⟩

/-- A neighbor that comes before one at distance zero is at distance zero too, and has the smaller
position. -/
theorem zero_of_compare {d : Float32} {j : Nat} (hd : Unsigned d)
    (h : (Candidate.ofDistance d j).compare (.ofDistance 0 i) = .lt) : d = 0 ∧ j < i := by
  rw [compare_ofDistance_eq_lt hd Single.unsigned_zero] at h
  rcases h with hlt | ⟨heq, hlt⟩
  · rw [Single.lt_iff_of_unsigned hd Single.unsigned_zero,
      Single.totalCompare_of_unsigned hd Single.unsigned_zero, Nat.compare_eq_lt] at hlt
    exact absurd hlt (Nat.not_lt_zero _)
  · rw [Single.beq_iff_of_unsigned hd Single.unsigned_zero, Single.totalCompare_eq_iff] at heq
    exact ⟨Float32.toBits_inj.1 heq, hlt⟩

/-- If a record that passes the filter is at distance zero, the ranking begins with the first such
record. -/
theorem head_ranking_of_zero (hvalid : s.Valid) (hquery : query.all Float32.isFinite = true)
    (hrecord : s.records[i]? = some record) (haccepts : filter.accepts record.metadata = true)
    (hzero : s.metric.distance query record.embedding = 0) :
    ∃ position first, s.IsNearestZero query filter position first
      ∧ (s.ranking query filter).head? = some ⟨first.metadata, 0⟩ := by
  have hsorted := pairwise_mergeSort_accepted s query filter
  have hmem (entry : Neighbor × Nat) :
      entry ∈ (s.accepted query filter).mergeSort inOrder ↔ entry ∈ s.accepted query filter :=
    List.mem_mergeSort
  have hranking : s.ranking query filter
      = ((s.accepted query filter).mergeSort inOrder).map Prod.fst := rfl
  cases hlist : (s.accepted query filter).mergeSort inOrder with
  | nil =>
    have hentry := (hmem _).2 (mem_accepted query hrecord haccepts)
    rw [hlist] at hentry
    exact absurd hentry List.not_mem_nil
  | cons head rest =>
    rw [hlist] at hsorted hmem
    obtain ⟨⟨first, position⟩, hentry, rfl⟩ := List.mem_map.1 ((hmem head).1 List.mem_cons_self)
    obtain ⟨hposition, hfirst⟩ := List.mem_filter.1 hentry
    rw [List.mem_zipIdx_iff_getElem?] at hposition
    have hunsigned := unsigned_distance_record hvalid hquery (List.mem_of_getElem? hposition)
    -- an accepted record at distance zero is the head of the list or comes after it
    have hbefore {j : Nat} {other : Record} (hother : s.records[j]? = some other)
        (haccepts : filter.accepts other.metadata = true)
        (hzero : s.metric.distance query other.embedding = 0) :
        s.metric.distance query first.embedding = 0 ∧ position ≤ j := by
      have hentry := (hmem _).2 (mem_accepted query hother haccepts)
      rcases List.mem_cons.1 hentry with heq | hrest
      · obtain ⟨hneighbor, rfl⟩ := Prod.mk.inj heq
        exact ⟨(congrArg Neighbor.distance hneighbor).symm.trans hzero, le_rfl⟩
      · have hlt := List.rel_of_pairwise_cons hsorted hrest
        have hlt' : (Candidate.ofDistance (s.metric.distance query first.embedding)
            position).compare (.ofDistance 0 j) = .lt := hzero ▸ hlt
        obtain ⟨hd, hj⟩ := zero_of_compare hunsigned hlt'
        exact ⟨hd, hj.le⟩
    obtain ⟨hdistance, _⟩ := hbefore hrecord haccepts hzero
    refine ⟨position, first, ⟨hposition, hfirst, ?_, ?_⟩, ?_⟩
    · rw [hdistance, toBits_zero]
    · intro j hj other hother haccepts' hbits
      have hzero' : s.metric.distance query other.embedding = 0 := Float32.toBits_inj.1 hbits
      exact absurd (hbefore hother haccepts' hzero').2 (Nat.not_le.2 hj)
    · rw [hranking, hlist, List.map_cons, List.head?_cons, hdistance]

/-- Distances are symmetric bit for bit. And where an index ranks by the (squared) Euclidean
distance, a search for a vector of which a record that passes the filter is a copy, with equal
numbers in all components, finds the zero without the sign bit as the distance of its best neighbor,
which is the first of those records that pass the filter and are at this distance. -/
theorem search_copy :
    (∀ (metric : Metric) (a b : List Float32),
      (metric.distance a b).toBits = (metric.distance b a).toBits)
    ∧ ∀ s : Store, s.Reachable → s.metric ≠ .cosine →
      ∀ (query : List Float32) (filter : Filter) (i : Nat) (record : Record),
        s.records[i]? = some record → filter.accepts record.metadata = true →
        Copies query record.embedding →
      ∀ maxResults, 0 < maxResults →
      ∀ token : Option CancellationToken,
        (∀ t ∈ token, ∀ scanned, t.cancelledAfter scanned = false) →
        ∃ result best position first,
          s.search query { maxResults, filter, token } = .ok result
          ∧ result.best? = some best
          ∧ best.distance.toBits = 0
          ∧ best.metadata = first.metadata
          ∧ s.IsNearestZero query filter position first := by
  refine ⟨fun metric a b => by rw [metric.distance_comm], ?_⟩
  intro s hs hmetric query filter i record hrecord haccepts hcopy maxResults hmax token htoken
  have hmem : record ∈ s.records := List.mem_of_getElem? hrecord
  obtain ⟨hlength, hfinite⟩ := hs.valid.of_mem_records hmem
  have hfinite' : record.embedding.all Float32.isFinite = true := List.all_eq_true.2 hfinite
  have hquery := hcopy.all_isFinite hfinite'
  obtain ⟨position, first, hfirst, hhead⟩ := head_ranking_of_zero hs.valid hquery hrecord haccepts
    (hcopy.distance_eq_zero hfinite' hmetric)
  refine ⟨_, ⟨first.metadata, 0⟩, position, first,
    search_of_fits hs.valid (hcopy.length_eq.trans hlength) hquery hmax filter htoken,
    ?_, toBits_zero, rfl, hfirst⟩
  rw [SearchResult.best?, List.head?_take, if_neg hmax.ne', hhead]

/-- Three records that are equal as numbers, with zeros of both signs. -/
def signedZeros : Store :=
  ⟨⟨2, Nat.two_pos⟩, .l2, "", #["a", "b", "c"], #[0, 1, .ofBits 0x80000000, 1, 0, 1]⟩

/-- The last record is a copy of the query. With the first one denied, the second one is found. -/
theorem search_copy_signedZeros :
    signedZeros.Reachable
    ∧ signedZeros.records[2]? = some ⟨"c", [0, 1]⟩
    ∧ Copies [.ofBits 0x80000000, 1] [0, 1]
    ∧ ∃ result best,
        signedZeros.search [.ofBits 0x80000000, 1]
          { maxResults := 2, filter := .deny (.ofList ["a"]) } = .ok result
        ∧ result.best? = some best
        ∧ best.distance.toBits = 0
        ∧ best.metadata = "b" := by
  have hbuilt : Store.ofRecords .l2 "" [("a", [0, 1]), ("b", [.ofBits 0x80000000, 1]),
      ("c", [0, 1])] = .ok signedZeros := rfl
  have hs : signedZeros.Reachable := .built hbuilt
  have hrecord : signedZeros.records[2]? = some ⟨"c", [0, 1]⟩ := rfl
  have hcopy : Copies [.ofBits 0x80000000, 1] [0, 1] := .cons rfl (.cons rfl .nil)
  have hfound : signedZeros.search [.ofBits 0x80000000, 1]
      { maxResults := 2, filter := .deny (.ofList ["a"]) } = .ok ⟨[⟨"b", 0⟩, ⟨"c", 0⟩]⟩ := by
    decide +kernel
  obtain ⟨result, best, _, _, hsearch, hbest, hbits, _⟩ := search_copy.2 signedZeros hs nofun
    [.ofBits 0x80000000, 1] (.deny (.ofList ["a"])) 2 ⟨"c", [0, 1]⟩ hrecord (by decide +kernel)
    hcopy 2 two_pos none nofun
  obtain rfl := Except.ok.inj (hfound.symm.trans hsearch)
  obtain rfl := Option.some.inj hbest
  exact ⟨hs, hrecord, hcopy, _, _, hfound, rfl, hbits, rfl⟩

end Index.Store

end NeighborSearch
