import NeighborSearch.Ranking.Search

/-!
# Ranking by a full sort

What a search stands for, without its scan and its shortlist: the records that pass the filter are
sorted by distance and then by position, and the first of them are the result.
-/

namespace NeighborSearch

namespace Index.Store

/-- All records that pass the filter as neighbors of the query, each with its position, in index
order. -/
def accepted (s : Store) (query : List Float32) (filter : Filter) : List (Neighbor × Nat) :=
  (s.records.zipIdx.filter fun entry => filter.accepts entry.1.metadata).map fun entry =>
    (⟨entry.1.metadata, s.metric.distance query entry.1.embedding⟩, entry.2)

/-- Whether one neighbor may stand before another: by the total order of the distances, then by
position. -/
def inOrder (a b : Neighbor × Nat) : Bool :=
  ((Single.totalCompare a.1.distance.toBits b.1.distance.toBits).then
    (Ord.compare a.2 b.2)).isLE

/-- All records that pass the filter, nearest first. -/
def ranking (s : Store) (query : List Float32) (filter : Filter) : List Neighbor :=
  ((s.accepted query filter).mergeSort inOrder).map Prod.fst

/-- The outcome of a search by a full sort, where `cancelled` says whether the search is cancelled
before it starts. -/
def searchBySorting (s : Store) (query : List Float32) (maxResults : Nat) (filter : Filter)
    (cancelled : Bool) : Except SearchError SearchResult :=
  if maxResults = 0 then
    .error (.invalidArgument "Invalid `max_results` option: value must be != 0")
  else if query.length ≠ s.dimension.toNat then
    .error (.dimensionMismatch s.dimension.toNat query.length)
  else if ¬query.all Float32.isFinite then
    .error (.invalidArgument "Query embedding contains non-finite values")
  else if cancelled then .error (.cancelled 0 s.size)
  else .ok ⟨(s.ranking query filter).take maxResults⟩

end Index.Store

namespace CancellationToken

/-- A token that stays during the search as it was before: cancelled already, or live. -/
def Settled (token : CancellationToken) : Prop :=
  token.cancelledAfter 0 = true ∨ ∀ scanned, token.cancelledAfter scanned = false

/-- How many records have been scanned when a search of a number of records finds the token
cancelled, if it ever does: the token is looked at before the first record, and then once in every
interval. -/
def stop? (token : CancellationToken) (total : Nat) : Option Nat :=
  (List.range total).find? fun scanned =>
    scanned % cancellationInterval == 0 && token.cancelledAfter scanned

end CancellationToken

end NeighborSearch
