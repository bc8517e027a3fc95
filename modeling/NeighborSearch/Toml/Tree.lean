import NeighborSearch.Config.Value

/-!
# Tables under construction

The lines of a TOML document fill one tree of tables. A tree remembers how each table came about,
because that decides what may still be added to it: a header opens a table once, a dotted name adds
only to tables that dotted names have made, and a value is closed.
-/

namespace NeighborSearch.Toml

open Config (Value)

/-- How a table came about. -/
inductive Origin where
  /-- By a header of its own. -/
  | header
  /-- On the way to a table with a header. -/
  | way
  /-- On the way of a dotted name. -/
  | dotted
deriving DecidableEq, Repr

/-- What stands under a name. -/
inductive Tree where
  | leaf (value : Value)
  | table (origin : Origin) (entries : List (String × Tree))
  /-- An array of tables: the last one, which is still open, and those before it, last first. -/
  | tables (last : List (String × Tree)) (before : List (List (String × Tree)))

namespace Tree

/-- Trees by name. -/
abbrev Entries := List (String × Tree)

/-- Adds a value under a name that is new, at the end of a dotted way. -/
def insert (entries : Entries) : (way : List String) → (name : String) → Value → Option Entries
  | [], name, value =>
    match entries.lookup name with
    | none => some (entries ++ [(name, .leaf value)])
    | some _ => none
  | step :: way, name, value =>
    match entries.lookup step with
    | none => (insert [] way name value).map fun inner => entries ++ [(step, .table .dotted inner)]
    | some (.table origin inner) =>
      if origin = .header ∨ (way = [] ∧ origin ≠ .dotted) then none
      else (insert inner way name value).map fun inner =>
        Named.put entries step (.table origin inner)
    | some (.tables last before) =>
      if way = [] then none
      else (insert last way name value).map fun last => Named.put entries step (.tables last before)
    | some (.leaf _) => none

/-- Changes the entries at the end of a way of headers, and makes the tables on it that are
missing. -/
def change (f : Entries → Option Entries) (entries : Entries) : List String → Option Entries
  | [] => f entries
  | step :: way =>
    match entries.lookup step with
    | none => (change f [] way).map fun inner => entries ++ [(step, .table .way inner)]
    | some (.table origin inner) =>
      (change f inner way).map fun inner => Named.put entries step (.table origin inner)
    | some (.tables last before) =>
      (change f last way).map fun last => Named.put entries step (.tables last before)
    | some (.leaf _) => none

/-- Opens a table of its own under a name. -/
def openTable (name : String) (entries : Entries) : Option Entries :=
  match entries.lookup name with
  | none => some (entries ++ [(name, .table .header [])])
  | some (.table .way inner) => some (Named.put entries name (.table .header inner))
  | some _ => none

/-- Opens one more table of an array under a name. -/
def openNext (name : String) (entries : Entries) : Option Entries :=
  match entries.lookup name with
  | none => some (entries ++ [(name, .tables [] [])])
  | some (.tables last before) => some (Named.put entries name (.tables [] (last :: before)))
  | some _ => none

mutual

/-- The value that a tree stands for. -/
def toValue : Tree → Value
  | leaf value => value
  | table _ entries => .table (toEntries entries)
  | tables last before => .array (toTables before [.table (toEntries last)])

/-- The values of trees by name. -/
def toEntries : List (String × Tree) → List (String × Value)
  | [] => []
  | (name, tree) :: rest => (name, tree.toValue) :: toEntries rest

/-- The tables of an array from the last to the first, before those that follow them. -/
def toTables : List (List (String × Tree)) → List Value → List Value
  | [], after => after
  | entries :: before, after => toTables before (.table (toEntries entries) :: after)

end

end Tree

end NeighborSearch.Toml
