import NeighborSearch.Json.Basic
import NeighborSearch.Text.Table

/-!
# Reports

What a command shows for its result: a text for people, and data for programs.
-/

namespace NeighborSearch

/-- The result of a command. -/
structure Report where
  /-- What is shown to people, without a newline at its end. -/
  text : String
  /-- What is shown to programs. -/
  data : Json

namespace Report

/-- A table of properties and their values. -/
def propertiesTable (rows : List (String × String)) : Text.Table :=
  .ofTexts (some ["Property", "Value"]) (rows.map fun (property, value) => [property, value])

/-- A plain text. -/
def ofText (text : String) : Report :=
  ⟨text, .string text⟩

end Report

end NeighborSearch
