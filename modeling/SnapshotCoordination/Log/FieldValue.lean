import SnapshotCoordination.Number.Precision

/-!
# Field values

The values a write can put into a field, and the types and link strengths a column can have.
-/

namespace SnapshotCoordination

/-- The type of a column. -/
inductive ColumnType where
  | int
  | bool
  | float
  | double
  | string
  | binary
  | timestamp
  | table
  | mixed
  | link
  | linkList
  deriving DecidableEq

/-- Whether a link column keeps its targets alive. -/
inductive LinkStrength where
  | strong
  | weak
  deriving DecidableEq

/-- A value written to a field. A `float` without a value is one that is too large for its
column. A subtable is only said to be assigned; what it holds is not part of a log. -/
inductive FieldValue where
  | int (value : Int)
  | bool (value : Bool)
  | float (value : Option Single)
  | double (value : Double)
  | string (text : String)
  | binary (bytes : List Nat)
  | timestamp (value : Int)
  | table
  | mixed (value : FieldValue)
  | link (row : Nat)
  | null
  deriving DecidableEq

end SnapshotCoordination
