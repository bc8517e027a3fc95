import NeighborSearch.Ranking.Candidate
import Std.Data.TreeSet

/-!
# Shortlists

The best candidates seen so far, never more than a given number of them. A scan offers one
candidate after the other; at the end the shortlist holds the best of all that were offered.
-/

namespace NeighborSearch

/-- A set of candidates in their order. -/
abbrev Shortlist := Std.TreeSet Candidate Candidate.compare

namespace Shortlist

/-- Takes a candidate in while there is room, and afterwards only in place of the worst one, if it
is better than that. -/
def offer (limit : Nat) (list : Shortlist) (candidate : Candidate) : Shortlist :=
  if list.size < limit then list.insert candidate
  else match list.max? with
    | none => list
    | some worst =>
      if candidate.before worst then (list.erase worst).insert candidate else list

end Shortlist

end NeighborSearch
