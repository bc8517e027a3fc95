/-!
# Dialects of TOML

The readers of TOML documents differ in the edition of the language that they read, in what they do
with the newlines of strings, and in what a document may hold at most.
-/

namespace NeighborSearch.Toml

/-- An edition of the language. TOML 1.1 adds escapes for the escape character and for code points
of two digits, newlines and a last comma in inline tables, and times without seconds. -/
inductive Edition where
  | v10
  | v11
deriving DecidableEq, Repr

/-- The integers that a document may hold. -/
structure IntegerRange where
  least : Int
  greatest : Int
deriving DecidableEq, Repr

/-- Whether an integer lies in a range. -/
def IntegerRange.holds (range : IntegerRange) (n : Int) : Bool :=
  decide (range.least ≤ n) && decide (n ≤ range.greatest)

/-- A dialect of TOML. -/
structure Dialect where
  edition : Edition
  /-- How a carriage return and a line feed in a string are read. -/
  newline : List Char
  /-- The greatest number of arrays and inline tables inside each other, and of parts of a name. -/
  depth : Nat
  integers : IntegerRange
deriving DecidableEq, Repr

end NeighborSearch.Toml
