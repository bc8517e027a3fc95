import NeighborSearch.Proofs.Json.Records
import NeighborSearch.Report.Decode

/-!
# Search results read back

A search result is written with its neighbors in order, each with its metadata and its distance. It
is read back neighbor by neighbor: the metadata always comes back as it was, whatever its
characters are, and the distance comes back as its number is read. A distance that is not finite is
written as `null`, and a result with such a distance is refused.
-/

namespace NeighborSearch

/-- What the number of a single is read as. -/
def Json.readBack? (x : Float32) : Option Float32 :=
  (Json.single x).toRaw.single?

/-- What is no number of finite size is written as `null`, which is no number. -/
theorem Json.readBack?_of_not_finite {x : Float32} (h : x.isFinite = false) :
    readBack? x = none := by
  have hnull : (Json.single x).toRaw = .null := by
    rw [single, toRaw, Number.toRaw, Number.numeral?, h, if_neg Bool.false_ne_true]
  rw [readBack?, hnull]
  rfl

namespace Neighbor

/-- The neighbor that is read from what a neighbor is written as. -/
def readBack? (n : Neighbor) : Option Neighbor :=
  (Json.readBack? n.distance).map fun distance => { n with distance }

theorem ofJson?_toJson (n : Neighbor) : ofJson? n.toJson.toRaw = n.readBack? := by
  have hfields := RawJson.fields?_object ["metadata", "distance"]
    [("metadata", .string n.metadata), ("distance", .single n.distance)]
    (show ["metadata", "distance"].Nodup by decide)
  have hmetadata : [("metadata", Json.string n.metadata), ("distance", .single n.distance)].lookup
      "metadata" = some (.string n.metadata) := rfl
  have hdistance : [("metadata", Json.string n.metadata), ("distance", .single n.distance)].lookup
      "distance" = some (.single n.distance) := rfl
  rw [ofJson?, toJson, hfields]
  simp only [Option.bind_eq_bind, Option.bind_some]
  rw [RawJson.required?_written (by decide), RawJson.required?_written (by decide), hmetadata,
    hdistance, Option.bind_some, RawJson.text?_string, Option.bind_some, Option.bind_some]
  exact Option.map_eq_bind.symm

/-- A neighbor comes back as it was exactly if its distance does. -/
theorem readBack?_eq_some_self {n : Neighbor} :
    n.readBack? = some n ↔ Json.readBack? n.distance = some n.distance := by
  obtain ⟨metadata, distance⟩ := n
  rw [readBack?, Option.map_eq_some_iff]
  constructor
  · rintro ⟨d, hread, heq⟩
    rw [hread, (Neighbor.mk.inj heq).2]
  · exact fun hread => ⟨distance, hread, rfl⟩

theorem metadata_of_readBack? {n m : Neighbor} (h : n.readBack? = some m) :
    m.metadata = n.metadata := by
  obtain ⟨d, _, rfl⟩ := Option.map_eq_some_iff.1 h
  rfl

end Neighbor

namespace SearchResult

/-- The result that is read from what a result is written as. -/
def readBack? (r : SearchResult) : Option SearchResult :=
  (r.neighbors.mapM Neighbor.readBack?).map SearchResult.mk

/-- The result that a text holds. -/
def ofText? (text : String) : Option SearchResult :=
  (RawJson.parse? text).bind ofJson?

/-- Only the member with the neighbors counts; a report has others beside it. -/
theorem ofJson?_object (r : SearchResult) {members : List (String × Json)}
    (hnames : (members.map Prod.fst).Nodup)
    (hneighbors : members.lookup "nearest_neighbors"
      = some (.array (r.neighbors.map Neighbor.toJson))) :
    ofJson? (Json.object members).toRaw = r.readBack? := by
  rw [ofJson?, RawJson.fields?_object _ _ hnames]
  simp only [Option.bind_eq_bind, Option.bind_some]
  rw [RawJson.required?_written (by decide), hneighbors, Option.bind_some, RawJson.list?_array]
  simp only [Neighbor.ofJson?_toJson]
  exact Option.map_eq_bind.symm

theorem ofJson?_toJson (r : SearchResult) : ofJson? r.toJson.toRaw = r.readBack? :=
  ofJson?_object r (List.nodup_singleton _) rfl

theorem ofJson?_report (report : SearchReport) :
    ofJson? report.toJson.toRaw = report.result.readBack? :=
  ofJson?_object report.result
    (show ["index", "max_results", "nearest_neighbors"].Nodup by decide) rfl

theorem readBack?_eq_some_iff {r s : SearchResult} :
    r.readBack? = some s
      ↔ List.Forall₂ (fun n m => n.readBack? = some m) r.neighbors s.neighbors := by
  rw [← RawJson.mapM_eq_some_iff, readBack?, Option.map_eq_some_iff]
  constructor
  · rintro ⟨ns, hread, rfl⟩
    exact hread
  · exact fun hread => ⟨s.neighbors, hread, rfl⟩

/-- A result comes back as it was exactly if all its distances do. -/
theorem readBack?_eq_some_self {r : SearchResult} :
    r.readBack? = some r ↔ ∀ n ∈ r.neighbors, Json.readBack? n.distance = some n.distance := by
  rw [readBack?_eq_some_iff, List.forall₂_same]
  simp only [Neighbor.readBack?_eq_some_self]

/-- Whatever is read, the neighbors are as many, in the same order and with the same metadata. -/
theorem metadata_of_readBack? {r s : SearchResult} (h : r.readBack? = some s) :
    s.neighbors.map Neighbor.metadata = r.neighbors.map Neighbor.metadata := by
  have hneighbors := (readBack?_eq_some_iff.1 h).flip
  rw [← List.forall₂_eq_eq_eq, List.forall₂_map_left_iff, List.forall₂_map_right_iff]
  exact hneighbors.imp fun m n hread => Neighbor.metadata_of_readBack? hread

/-- A single distance that is not finite is enough for nothing to be read. -/
theorem readBack?_of_not_finite {r : SearchResult} {n : Neighbor} (hn : n ∈ r.neighbors)
    (h : n.distance.isFinite = false) : r.readBack? = none := by
  by_contra hsome
  obtain ⟨s, hs⟩ := Option.ne_none_iff_exists'.1 hsome
  have hread : ∀ n ∈ r.neighbors, n.readBack?.isSome := by
    have hboth := (readBack?_eq_some_iff.1 hs).imp fun n m hm =>
      And.intro (Option.isSome_of_eq_some hm) hm
    exact ((List.forall₂_and_left _ _).1 hboth).1
  have hneighbor := hread n hn
  rw [Neighbor.readBack?, Json.readBack?_of_not_finite h] at hneighbor
  cases hneighbor

theorem ofText?_toCompact (value : Json) : ofText? value.toCompact = ofJson? value.toRaw := by
  rw [ofText?, Json.parse?_toCompact, Option.bind_some]

theorem ofText?_toPretty (value : Json) : ofText? value.toPretty = ofJson? value.toRaw := by
  rw [ofText?, Json.parse?_toPretty, Option.bind_some]

/-- The texts of a result, by itself or in a report, are read as the neighbors that come back. That
is the result itself exactly if every distance comes back; metadata, number and order are never at
stake, and a distance that is not finite leaves nothing. -/
theorem reads_back (r : SearchResult) (index : String) (maxResults : Nat) :
    ofText? r.toJson.toCompact = r.readBack? ∧ ofText? r.toJson.toPretty = r.readBack?
    ∧ ofText? (SearchReport.mk index maxResults r).toJson.toCompact = r.readBack?
    ∧ ofText? (SearchReport.mk index maxResults r).toJson.toPretty = r.readBack?
    ∧ (r.readBack? = some r
      ↔ ∀ n ∈ r.neighbors, Json.readBack? n.distance = some n.distance)
    ∧ (∀ s, r.readBack? = some s →
      s.neighbors.map Neighbor.metadata = r.neighbors.map Neighbor.metadata)
    ∧ ∀ n ∈ r.neighbors, n.distance.isFinite = false → r.readBack? = none := by
  refine ⟨?_, ?_, ?_, ?_, readBack?_eq_some_self, fun s => metadata_of_readBack?,
    fun n => readBack?_of_not_finite⟩
  · rw [ofText?_toCompact, ofJson?_toJson]
  · rw [ofText?_toPretty, ofJson?_toJson]
  · rw [ofText?_toCompact, ofJson?_report]
  · rw [ofText?_toPretty, ofJson?_report]

example : readBack? ⟨[⟨"a", 25⟩, ⟨"b", -0⟩]⟩ = some ⟨[⟨"a", 25⟩, ⟨"b", -0⟩]⟩ := by
  rw [readBack?_eq_some_self]
  decide +kernel

/-- The largest single. -/
def largest : Float32 :=
  Float32.ofBits 0x7f7fffff

/-- The result of a search whose one distance is beyond the singles. -/
def overflowed : SearchResult :=
  ⟨[⟨"a", Float32.ofBits 0x7f800000⟩]⟩

theorem reads_back_overflowed :
    (∃ n ∈ overflowed.neighbors, n.distance.isFinite = false) ∧ overflowed.readBack? = none :=
  ⟨⟨_, List.mem_singleton_self _, rfl⟩,
    (reads_back overflowed "data/index.ldb" 1).2.2.2.2.2.2 _ (List.mem_singleton_self _) rfl⟩

/-- Finite values can be so far apart that their distance is infinite. The search succeeds, and what
is written of it is not read. -/
theorem search_largest_not_read :
    (∃ s, Index.Store.ofRecords .squaredL2 "" [("a", [largest])] = .ok s
      ∧ s.search [-largest] { maxResults := 1 } = .ok overflowed)
    ∧ overflowed.toJson.toCompact
      = "\x7b\"nearest_neighbors\":[\x7b\"metadata\":\"a\",\"distance\":null\x7d]\x7d"
    ∧ ofText? overflowed.toJson.toCompact = none
    ∧ ofText? overflowed.toJson.toPretty = none := by
  have hnothing : overflowed.readBack? = none :=
    readBack?_of_not_finite (List.mem_singleton_self _) rfl
  refine ⟨⟨_, rfl, rfl⟩, rfl, ?_, ?_⟩
  · rw [ofText?_toCompact, ofJson?_toJson, hnothing]
  · rw [ofText?_toPretty, ofJson?_toJson, hnothing]

end SearchResult

end NeighborSearch
