import NeighborSearch.Index.Source
import NeighborSearch.Report

/-!
# The report on an index

What is known about an index file without looking at its records.
-/

namespace NeighborSearch

/-- A summary of an index. -/
structure IndexInfo where
  path : String
  dimension : Nat
  records : Nat
  metric : Metric
  userInfo : String
  /-- The size of the file in bytes, if there is a file at the path. -/
  fileSize : Option Nat

namespace IndexInfo

/-- The summary of a store that was loaded from a path. -/
def ofStore (path : String) (store : Index.Store) (fileSize : Option Nat) : IndexInfo where
  path
  dimension := store.dimension.toNat
  records := store.size
  metric := store.metric
  userInfo := store.userInfo
  fileSize

/-- The summary of a store that was loaded from a path, with the size of the file there. -/
def inspect {m : Type → Type} [Monad m] [Host m] (path : String) (store : Index.Store) :
    m IndexInfo := do
  match ← Host.status path with
  | some (.file size) => return ofStore path store (some size)
  | some _ => return ofStore path store (some 0)
  | none => return ofStore path store none

/-- The properties and their values. -/
def rows (info : IndexInfo) : List (String × String) :=
  [("Index", info.path), ("Dimension", toString info.dimension),
    ("Records", toString info.records), ("Metric", info.metric.name),
    ("User info", info.userInfo)]
    ++ (info.fileSize.map fun size => ("File size", toString size ++ " bytes")).toList

def toJson (info : IndexInfo) : Json :=
  .objectOf [("path", some (.string info.path)),
    ("dimension", some (.natural (.ofNat info.dimension))),
    ("records", some (.natural (.ofNat info.records))),
    ("metric", some (.string info.metric.name)),
    ("user_info", some (.string info.userInfo)),
    ("file_size", info.fileSize.map fun size => .natural (.ofNat size))]

/-- What the info command shows. -/
def toReport (info : IndexInfo) : Report :=
  ⟨(Report.propertiesTable info.rows).toText, info.toJson⟩

end IndexInfo

end NeighborSearch
