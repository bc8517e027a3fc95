import NeighborSearch.Metric
import NeighborSearch.Single.Sum

/-!
# Distance kernels

Single-precision arithmetic throughout, each operation rounded once. Both vectors are taken to
have the same length; the search checks that once for a query.
-/

namespace NeighborSearch

/-- The squared difference of two components. -/
def squaredDifference (x y : Float32) : Float32 :=
  let d := x - y
  d * d

/-- The sum of squared differences, by the lane sum. -/
def squaredL2 (a b : List Float32) : Float32 :=
  Single.laneSum (List.zipWith squaredDifference a b)

/-- The sum of products. -/
def dotProduct (a b : List Float32) : Float32 :=
  Single.sum (List.zipWith (· * ·) a b)

/-- The Euclidean length of a vector. -/
def norm (a : List Float32) : Float32 :=
  (dotProduct a a).sqrt

/-- The distance from one to the next larger value, `2 ^ (-23)`. A vector whose norm is smaller has
no direction. -/
def normThreshold : Float32 :=
  Float32.ofBits 0x34000000

/-- Moves a value outside `[-1, 1]` to the nearer end; what is not a number stays. -/
def clampToUnit (x : Float32) : Float32 :=
  if x < -1 then -1 else if 1 < x then 1 else x

/-- The cosine of the angle between two vectors. A vector without direction has similarity zero
with every vector. -/
def cosineSimilarity (a b : List Float32) : Float32 :=
  let product := dotProduct a b
  let normA := norm a
  let normB := norm b
  if normA < normThreshold ∨ normB < normThreshold then 0
  else clampToUnit (product / (normA * normB))

/-- The value itself where it is above zero, else zero, also for what is not a number. -/
def positivePart (x : Float32) : Float32 :=
  if 0 < x then x else 0

/-- The distance of two vectors under a metric. -/
def Metric.distance (metric : Metric) (a b : List Float32) : Float32 :=
  match metric with
  | .squaredL2 => NeighborSearch.squaredL2 a b
  | .l2 => (NeighborSearch.squaredL2 a b).sqrt
  | .cosine => positivePart (1 - cosineSimilarity a b)

end NeighborSearch
