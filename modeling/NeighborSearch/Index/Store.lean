import NeighborSearch.Dimension
import NeighborSearch.Index.Fault
import NeighborSearch.Metric

/-!
# Index stores

The records of an index in memory. Labels are kept in one array and all components in another,
record after record; `Store.Valid` says how the two belong together. A store is never changed once
it is made. `Store.record?` looks one record up, `Store.records` lists all of them.
-/

namespace NeighborSearch.Index

/-- One entry of an index. -/
structure Record where
  metadata : String
  embedding : List Float32
deriving DecidableEq

/-- The records of an index. -/
structure Store where
  dimension : Dimension
  metric : Metric
  userInfo : String
  /-- The metadata of the records, in index order. -/
  labels : Array String
  /-- The components of all records, record after record. -/
  values : Array Float32
deriving DecidableEq

/-- Splits off `count` rows of `width` elements. -/
def splitRows {α : Type} (width : Nat) : (count : Nat) → List α → List (List α)
  | 0, _ => []
  | count + 1, xs => xs.take width :: splitRows width count (xs.drop width)

namespace Store

/-- The number of records. -/
def size (s : Store) : Nat :=
  s.labels.size

def isEmpty (s : Store) : Bool :=
  s.labels.isEmpty

/-- The record at a position. -/
def record? (s : Store) (i : Nat) : Option Record :=
  match s.labels[i]? with
  | none => none
  | some label =>
    let d := s.dimension.toNat
    some ⟨label, (s.values.extract (i * d) ((i + 1) * d)).toList⟩

/-- All records in index order. -/
def records (s : Store) : List Record :=
  let d := s.dimension.toNat
  List.zipWith Record.mk s.labels.toList (splitRows d (s.values.size / d) s.values.toList)

/-- What every store holds that was read or built: it has records, each of them has as many
components as the dimension says, and all components are finite. -/
structure Valid (s : Store) : Prop where
  nonempty : 0 < s.labels.size
  values_size : s.values.size = s.labels.size * s.dimension.toNat
  finite : ∀ x ∈ s.values, x.isFinite = true

end Store

/-- Labels and components collected so far. -/
structure Rows where
  labels : Array String
  values : Array Float32

namespace Rows

/-- No rows, with room for `count` rows of `width` components. -/
def reserve (count width : Nat) : Rows :=
  ⟨Array.emptyWithCapacity count, Array.emptyWithCapacity (count * width)⟩

/-- Adds a record at the end. -/
def push (rows : Rows) (label : String) (row : List Float32) : Rows :=
  ⟨rows.labels.push label, rows.values ++ row⟩

/-- The store of the collected rows. -/
def toStore (rows : Rows) (dimension : Dimension) (metric : Metric) (userInfo : String) : Store :=
  ⟨dimension, metric, userInfo, rows.labels, rows.values⟩

end Rows

/-- Fails if a component of a record is infinite or not a number. -/
def checkFinite (record : Nat) (row : List Float32) : Except Fault Unit :=
  if row.all Float32.isFinite then .ok () else .error (.notFinite record)

/-- Fails if a record has another number of components than the index. -/
def checkDimension (dimension : Dimension) (record found : Nat) : Except Fault Unit :=
  if found = dimension.toNat then .ok ()
  else .error (.wrongDimension record found dimension.toNat)

/-- Collects records in order; `record` is the position of the first of them. -/
def Rows.collect (dimension : Dimension) (rows : Rows) (record : Nat) :
    List (String × List Float32) → Except Fault Rows
  | [] => .ok rows
  | (label, row) :: rest => do
    checkDimension dimension record row.length
    checkFinite record row
    (rows.push label row).collect dimension (record + 1) rest

/-- The store of a list of records. The first record sets the dimension. -/
def Store.ofRecords (metric : Metric) (userInfo : String) (records : List (String × List Float32)) :
    Except Fault Store :=
  match records with
  | [] => .error .noRecords
  | (_, first) :: _ =>
    if h : 0 < first.length then do
      let dimension : Dimension := ⟨first.length, h⟩
      let rows ← (Rows.reserve records.length first.length).collect dimension 0 records
      .ok (rows.toStore dimension metric userInfo)
    else .error .zeroDimension

end NeighborSearch.Index
