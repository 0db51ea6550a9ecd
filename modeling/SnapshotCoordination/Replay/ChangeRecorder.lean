import SnapshotCoordination.Diff.Changes
import SnapshotCoordination.Replay.SchemaGuard

/-!
# The change recorder

A `ChangeRecorder` reads a log behind a schema guard and records what the log changed: writes
to rows and unordered erases of rows for every table, and every list instruction for the link
lists it observes. On top of what the guard refuses it refuses an erase of rows that keeps
their order or takes out more or less than one row, since a row diff has no form for those.
-/

namespace SnapshotCoordination

/-- The state of a recorder part way through a log. -/
structure ChangeRecorder where
  guard : SchemaGuard
  changes : Changes
  /-- Which of the observed lists is selected, if one is. -/
  activeList : Option Nat
  deriving DecidableEq

namespace ChangeRecorder

/-- A recorder at the start of a log, observing the given lists. -/
def observing (keys : List ListKey) : ChangeRecorder := ⟨.fresh, .observing keys, none⟩

instance : Inhabited ChangeRecorder := ⟨observing []⟩

/-- Change the row diff of the selected table. -/
def onCurrentTable (r : ChangeRecorder) (f : RowDiff → RowDiff) : ChangeRecorder :=
  { r with changes := r.changes.onTable r.guard.currentTable f }

/-- Change the list diff of the selected list, if it is observed. -/
def onActiveList (r : ChangeRecorder) (f : ListDiff → ListDiff) : ChangeRecorder :=
  match r.activeList with
  | some i => { r with changes := r.changes.onList i f }
  | none => r

/-- Select the list in column `col` of row `row` of the selected table. -/
def selectList (r : ChangeRecorder) (row col : Nat) : ChangeRecorder :=
  { r with activeList := r.changes.lists.findIdx? (·.key == ⟨r.guard.currentTable, row, col⟩) }

/-- Record an instruction that the guard took in. -/
def record (r : ChangeRecorder) : Instruction → ChangeRecorder × Option Failure
  | .set _ row _ | .setUnique _ row _ | .nullifyLink _ row | .insertText _ row _ _
  | .eraseText _ row _ _ => (r.onCurrentTable (·.markDirty row), none)
  | .eraseRows row count priorRows unordered =>
    if !unordered then (r, some (.invalidLog (.orderedErase row)))
    else if count ≠ 1 then (r, some (.invalidLog (.erasesSeveral count row)))
    else (r.onCurrentTable (·.eraseUnordered row priorRows), none)
  | .selectLinkList col row => (r.selectList row col, none)
  | .listSet index _ => (r.onActiveList (·.set index), none)
  | .listInsert index _ => (r.onActiveList (·.insert index), none)
  | .listErase index | .listNullify index => (r.onActiveList (·.erase index), none)
  | .listSwap indexA indexB => (r.onActiveList (·.swap indexA indexB), none)
  | .listClear _ => (r.onActiveList (·.clear), none)
  | .listMove origin target => (r.onActiveList (·.move origin target), none)
  | _ => (r, none)

/-- Take in or refuse one instruction. -/
def read (r : ChangeRecorder) (i : Instruction) : ChangeRecorder × Option Failure :=
  match r.guard.read i with
  | (guard, none) => record { r with guard := guard } i
  | (guard, some failure) => ({ r with guard := guard }, some failure)

instance : LogReader ChangeRecorder where
  read := read
  finish r := (r, none)

end ChangeRecorder

end SnapshotCoordination
