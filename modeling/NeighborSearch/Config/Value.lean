import NeighborSearch.Named

/-!
# Configuration values

What settings files and environment variables say. A layer of configuration is a table; layers are
put over each other name by name, so that a table of the upper layer never hides what it leaves out.
-/

namespace NeighborSearch.Config

/-- A value of a configuration. -/
inductive Value where
  | string (s : String)
  | integer (n : Int)
  /-- A floating-point number. No setting is one, so its value is not kept. -/
  | float
  | boolean (b : Bool)
  | array (items : List Value)
  | table (entries : List (String × Value))

/-- The named values of a table. -/
abbrev Entries := List (String × Value)

mutual

/-- A value put over another one. Two tables are joined name by name; anything else replaces what
is below it. -/
def Value.over : (upper lower : Value) → Value
  | .table upper, .table lower => .table (join upper lower)
  | upper, _ => upper

/-- The entries of a table put over those of another one. -/
def join : (upper lower : List (String × Value)) → List (String × Value)
  | [], lower => lower
  | (name, value) :: rest, lower =>
    let value := match lower.lookup name with
      | some below => value.over below
      | none => value
    join rest (Named.put lower name value)

end

/-- The table that holds a value at the end of a way of names. -/
def nest : List String → Value → Value
  | [], value => value
  | name :: names, value => .table [(name, nest names value)]

end NeighborSearch.Config
