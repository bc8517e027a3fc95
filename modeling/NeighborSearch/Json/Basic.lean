/-!
# JSON values

The values that reports are made of. Objects keep the order in which their members are written.
-/

namespace NeighborSearch

namespace Json

/-- A number, in the precision in which it is kept. -/
inductive Number where
  | natural (n : UInt64)
  | negative (n : Int64)
  | single (x : Float32)
  | double (x : Float)
deriving DecidableEq

end Json

/-- A JSON value. -/
inductive Json where
  | null
  | bool (b : Bool)
  | number (n : Json.Number)
  | string (s : String)
  | array (items : List Json)
  | object (members : List (String × Json))

namespace Json

def natural (n : UInt64) : Json :=
  number (.natural n)

def single (x : Float32) : Json :=
  number (.single x)

/-- An object without the members that are absent. -/
def objectOf (members : List (String × Option Json)) : Json :=
  object (members.filterMap fun (name, value) => value.map fun v => (name, v))

end Json

end NeighborSearch
