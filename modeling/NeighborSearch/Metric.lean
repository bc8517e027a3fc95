/-!
# Distance functions

The distance function an index was built for. It is recorded in the header of the index, and
queries are always ranked with it. Lower is closer for each of them.
-/

namespace NeighborSearch

/-- The distance function of an index. -/
inductive Metric where
  /-- Sum of squared component differences. -/
  | squaredL2
  /-- Euclidean distance. -/
  | l2
  /-- One minus the cosine similarity. -/
  | cosine
deriving DecidableEq, Repr, Inhabited

namespace Metric

/-- The number under which a metric stands in an index header. -/
def id : Metric → UInt32
  | squaredL2 => 0
  | l2 => 1
  | cosine => 2

/-- The metric of a header number. -/
def ofId? (n : UInt32) : Option Metric :=
  if n = 0 then some squaredL2
  else if n = 1 then some l2
  else if n = 2 then some cosine
  else none

/-- The name of a metric in reports and JSON texts. -/
def name : Metric → String
  | squaredL2 => "squared_l2"
  | l2 => "l2"
  | cosine => "cosine"

/-- The metric of a name. -/
def ofName? (s : String) : Option Metric :=
  if s = "squared_l2" then some squaredL2
  else if s = "l2" then some l2
  else if s = "cosine" then some cosine
  else none

theorem ofId?_id (m : Metric) : ofId? m.id = some m := by
  cases m <;> rfl

theorem ofId?_eq_some_iff {n : UInt32} {m : Metric} : ofId? n = some m ↔ n = m.id := by
  constructor
  · unfold ofId?
    intro h
    split at h
    · cases h; assumption
    split at h
    · cases h; assumption
    split at h
    · cases h; assumption
    · cases h
  · rintro rfl
    exact ofId?_id m

theorem ofName?_name (m : Metric) : ofName? m.name = some m := by
  cases m <;> rfl

end Metric

end NeighborSearch
