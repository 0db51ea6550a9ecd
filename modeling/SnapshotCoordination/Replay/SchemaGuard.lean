import SnapshotCoordination.Number.Word
import SnapshotCoordination.Replay.LogReader

/-!
# The schema guard

Another process may write to the same file under a different schema. Writes of data never
hurt, and neither does a table that the log itself creates, but any other change to the
structure of the file would pull the ground from under the accessors handed out here. The
`SchemaGuard` reads a log and refuses such a change the moment it turns up.

It has to know which table numbers stand for tables created by the log. A new table takes a
number and pushes every table from that number on up by one, the earlier new ones included.
Numbers are words, so a new table that has the last one is pushed to number zero.
-/

namespace SnapshotCoordination

/-- The state of a guard part way through a log. -/
structure SchemaGuard where
  /-- The number selected last. -/
  currentTable : Nat
  /-- The numbers of the tables created so far, earliest first. -/
  newTables : List Nat
  deriving DecidableEq

namespace SchemaGuard

/-- A guard at the start of a log. -/
def fresh : SchemaGuard := ⟨0, []⟩

instance : Inhabited SchemaGuard := ⟨fresh⟩

/-- The log creates a table with number `n`. -/
def createTable (g : SchemaGuard) (n : Nat) : SchemaGuard :=
  { g with newTables := g.newTables.map (fun t => if n ≤ t then Word.next t else t) ++ [n] }

/-- Whether the selected table was created by the log. -/
def onNewTable (g : SchemaGuard) : Bool := g.newTables.contains g.currentTable

/-- Take in or refuse one instruction. -/
def read (g : SchemaGuard) : Instruction → SchemaGuard × Option Failure
  | .selectTable table => ({ g with currentTable := table }, none)
  | .selectDescriptor levels => (g, if levels = 0 then none else some .schemaMismatch)
  | .insertTable table _ => (g.createTable table, none)
  | .insertColumn .. | .insertLinkColumn .. | .addPrimaryKey _ | .setLinkStrength .. =>
    (g, if g.onNewTable then none else some .schemaMismatch)
  | .eraseTable _ | .renameTable .. | .moveTable .. | .eraseColumn _ | .eraseLinkColumn _
  | .renameColumn .. | .moveColumn .. | .removePrimaryKey => (g, some .schemaMismatch)
  | .addSearchIndex _ | .removeSearchIndex _ | .selectLinkList .. | .insertRows ..
  | .eraseRows .. | .swapRows .. | .clearTable | .optimizeTable | .set .. | .setUnique ..
  | .nullifyLink .. | .insertText .. | .eraseText .. | .listSet .. | .listInsert ..
  | .listErase _ | .listNullify _ | .listClear _ | .listMove .. | .listSwap .. => (g, none)

instance : LogReader SchemaGuard where
  read := read
  finish g := (g, none)

/-- Whether a fresh guard takes in all of a log. -/
def allows (log : Log) : Bool := LogReader.accepts fresh log

end SchemaGuard

end SnapshotCoordination
