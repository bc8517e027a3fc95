import NeighborSearch.Distance
import NeighborSearch.Index.Store
import NeighborSearch.Ranking.Filter
import NeighborSearch.Ranking.Shortlist

/-!
# Exact search

A search scans every record of a store, so its result is exact. It keeps a shortlist of the best
candidates, which takes the time of one insertion per record and the memory of one result.
-/

namespace NeighborSearch

open Index (Store Record)

/-- A record of a result. -/
structure Neighbor where
  metadata : String
  distance : Float32
deriving DecidableEq

/-- The neighbors of a query, nearest first. -/
structure SearchResult where
  neighbors : List Neighbor
deriving DecidableEq

namespace SearchResult

def size (r : SearchResult) : Nat :=
  r.neighbors.length

def isEmpty (r : SearchResult) : Bool :=
  r.neighbors.isEmpty

/-- The nearest neighbor. -/
def best? (r : SearchResult) : Option Neighbor :=
  r.neighbors.head?

end SearchResult

/-- What a search sees of a cancellation token. -/
structure CancellationToken where
  /-- Whether the token is cancelled by the time that many records have been scanned. -/
  cancelledAfter : Nat → Bool

namespace CancellationToken

/-- A token that is never cancelled. -/
def live : CancellationToken := ⟨fun _ => false⟩

/-- A token that is cancelled before the search starts. -/
def cancelled : CancellationToken := ⟨fun _ => true⟩

end CancellationToken

/-- The parameters of a search. -/
structure SearchRequest where
  maxResults : Nat
  filter : Filter := .all
  token : Option CancellationToken := none

/-- The number of records scanned between two looks at the cancellation token. -/
def cancellationInterval : Nat := 1024

/-- Fails if no results are asked for. -/
def checkMaxResults (maxResults : Nat) : Except SearchError Unit :=
  if maxResults = 0 then
    .error (.invalidArgument "Invalid `max_results` option: value must be != 0")
  else .ok ()

/-- Fails if a component of a query is infinite or not a number. -/
def checkQuery (query : List Float32) : Except SearchError Unit :=
  if query.all Float32.isFinite then .ok ()
  else .error (.invalidArgument "Query embedding contains non-finite values")

/-- Whether the token stops the scan before the record at a position. -/
def SearchRequest.stopsBefore (request : SearchRequest) (position : Nat) : Bool :=
  position % cancellationInterval == 0 &&
    match request.token with
    | none => false
    | some token => token.cancelledAfter position

namespace Index.Store

/-- Scans records, the first of which has position `position`. -/
def scan (s : Store) (query : List Float32) (request : SearchRequest) :
    (position : Nat) → List Record → Shortlist → Except SearchError Shortlist
  | _, [], list => .ok list
  | position, record :: rest, list =>
    if request.stopsBefore position then .error (.cancelled position s.size)
    else
      let list :=
        if request.filter.accepts record.metadata then
          list.offer request.maxResults
            (.ofDistance (s.metric.distance query record.embedding) position)
        else list
      s.scan query request (position + 1) rest list

/-- The neighbor a candidate stands for. -/
def neighbor? (s : Store) (c : Candidate) : Option Neighbor :=
  (s.record? c.position).map fun record => ⟨record.metadata, c.distance⟩

/-- The nearest records that pass the filter, nearest first. Equally near records keep the order of
the index. -/
def search (s : Store) (query : List Float32) (request : SearchRequest) :
    Except SearchError SearchResult := do
  checkMaxResults request.maxResults
  s.dimension.check query
  checkQuery query
  let list ← s.scan query request 0 s.records ∅
  .ok ⟨list.toList.filterMap s.neighbor?⟩

end Index.Store

end NeighborSearch
