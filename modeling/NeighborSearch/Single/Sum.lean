/-!
# Sums in single precision

Single-precision addition is not associative, so the order of a sum is part of its value. Two
orders are used: from left to right (`sum`), and in eight interleaved accumulators (`laneSums`).
-/

namespace NeighborSearch.Single

/-- `-0`, the one value that leaves every summand as it is: adding `+0` would turn `-0` to `+0`. -/
def negativeZero : Float32 :=
  Float32.ofBits 0x80000000

/-- The sum from left to right. It starts from `-0`, which is also the empty sum. -/
def sum (terms : List Float32) : Float32 :=
  terms.foldl (· + ·) negativeZero

/-- Adds a term to the accumulator that is next in turn, and moves that one to the end. -/
def addInTurn (lanes : List Float32) (term : Float32) : List Float32 :=
  match lanes with
  | [] => []
  | lane :: rest => rest ++ [lane + term]

/-- The number of accumulators of a lane sum. -/
def laneCount : Nat := 8

/-- Eight accumulators that start from `+0` and take the terms in turn. After a whole number of
rounds they stand in their first order again. -/
def laneSums (terms : List Float32) : List Float32 :=
  terms.foldl addInTurn (List.replicate laneCount 0)

/-- The lane sum: whole rounds go through the accumulators, their values are summed, and the terms
of the last, incomplete round are added one by one. -/
def laneSum (terms : List Float32) : Float32 :=
  let body := laneCount * (terms.length / laneCount)
  (terms.drop body).foldl (· + ·) (sum (laneSums (terms.take body)))

theorem length_addInTurn (lanes : List Float32) (term : Float32) :
    (addInTurn lanes term).length = lanes.length := by
  cases lanes <;> simp [addInTurn]

theorem length_laneSums (terms : List Float32) : (laneSums terms).length = laneCount := by
  have h (lanes : List Float32) :
      (terms.foldl addInTurn lanes).length = lanes.length := by
    induction terms generalizing lanes with
    | nil => rfl
    | cons term rest ih => rw [List.foldl_cons, ih, length_addInTurn]
  rw [laneSums, h, List.length_replicate]

end NeighborSearch.Single
