import SnapshotCoordination.Log.FieldValue

/-!
# Log instructions

One `Instruction` is one low-level mutation. Row and column instructions act on the table
selected last, list instructions on the link list selected last. A commit leaves one `Log`,
the instructions of its transaction in order.
-/

namespace SnapshotCoordination

/-- One mutation recorded by a transaction. -/
inductive Instruction where
  -- selection
  | selectTable (table : Nat)
  | selectDescriptor (levels : Nat)
  | selectLinkList (col row : Nat)
  -- tables
  | insertTable (table : Nat) (name : String)
  | eraseTable (table : Nat)
  | renameTable (table : Nat) (name : String)
  | moveTable (origin target : Nat)
  -- columns
  | insertColumn (col : Nat) (type : ColumnType) (name : String) (nullable : Bool)
  | insertLinkColumn (col : Nat) (type : ColumnType) (name : String) (targetTable : Nat)
  | eraseColumn (col : Nat)
  | eraseLinkColumn (col : Nat)
  | renameColumn (col : Nat) (name : String)
  | moveColumn (origin target : Nat)
  | addPrimaryKey (col : Nat)
  | removePrimaryKey
  | setLinkStrength (col : Nat) (strength : LinkStrength)
  | addSearchIndex (col : Nat)
  | removeSearchIndex (col : Nat)
  -- rows
  | insertRows (row count priorRows : Nat)
  | eraseRows (row count priorRows : Nat) (unordered : Bool)
  | swapRows (rowA rowB : Nat)
  | clearTable
  | optimizeTable
  -- fields
  | set (col row : Nat) (value : FieldValue)
  | setUnique (col row : Nat) (value : FieldValue)
  | nullifyLink (col row : Nat)
  | insertText (col row position : Nat) (text : String)
  | eraseText (col row position length : Nat)
  -- link lists
  | listSet (index targetRow : Nat)
  | listInsert (index targetRow : Nat)
  | listErase (index : Nat)
  | listNullify (index : Nat)
  | listClear (oldSize : Nat)
  | listMove (origin target : Nat)
  | listSwap (indexA indexB : Nat)
  deriving DecidableEq

/-- The instructions of one transaction, in the order they happened. -/
abbrev Log := List Instruction

end SnapshotCoordination
