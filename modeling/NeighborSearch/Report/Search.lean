import NeighborSearch.Decimal.Fixed
import NeighborSearch.Ranking.Search
import NeighborSearch.Report

/-!
# The report of a search

The neighbors as a table, or as data with their distances in full.
-/

namespace NeighborSearch

/-- The outcome of a search command. -/
structure SearchReport where
  /-- The path of the index that was searched. -/
  index : String
  maxResults : Nat
  result : SearchResult

/-- The number of places of a distance in a table. -/
def distancePlaces : Nat := 6

/-- The row of the neighbor at a position. -/
def Neighbor.row (neighbor : Neighbor) (position : Nat) : List Text.Cell :=
  [⟨toString (position + 1), .right⟩, ⟨neighbor.metadata, .left⟩,
    ⟨Decimal.fixedSingle distancePlaces neighbor.distance, .right⟩]

/-- The data of a neighbor. -/
def Neighbor.toJson (neighbor : Neighbor) : Json :=
  .object [("metadata", .string neighbor.metadata), ("distance", .single neighbor.distance)]

/-- The ranked neighbors, a row for each of them. -/
def SearchResult.table (result : SearchResult) : Text.Table where
  header := some [⟨"Rank", .left⟩, ⟨"Metadata", .left⟩, ⟨"Distance", .left⟩]
  rows := result.neighbors.zipIdx.map fun (neighbor, position) => neighbor.row position

/-- The members of a result in JSON objects. -/
def SearchResult.members (result : SearchResult) : List (String × Json) :=
  [("nearest_neighbors", .array (result.neighbors.map Neighbor.toJson))]

/-- The data of a result. -/
def SearchResult.toJson (result : SearchResult) : Json :=
  .object result.members

namespace SearchReport

/-- The line above the table, and the table. -/
def text (report : SearchReport) : String :=
  toString report.result.size ++ " nearest neighbors in " ++ report.index ++ "\n"
    ++ report.result.table.toText

def toJson (report : SearchReport) : Json :=
  .object (("index", .string report.index) :: ("max_results", .natural (.ofNat report.maxResults))
    :: report.result.members)

/-- What the search command shows. -/
def toReport (report : SearchReport) : Report :=
  ⟨report.text, report.toJson⟩

end SearchReport

end NeighborSearch
