import SnapshotCoordination.Diff.RowDiff
import SnapshotCoordination.Diff.ListDiff

/-!
# Changes between two snapshots

A `Changes` value collects the row diffs of all tables, indexed by table number, and the list
diffs of the observed link lists. A table past the end of the row diffs did not change.
-/

namespace SnapshotCoordination

/-- Everything recorded between two snapshots. -/
structure Changes where
  tables : List RowDiff
  lists : List ListDiff
  deriving DecidableEq

namespace Changes

/-- The changes between a snapshot and itself. -/
def empty : Changes := ⟨[], []⟩

instance : Inhabited Changes := ⟨empty⟩

/-- The row diff of table `n`, if one is recorded. -/
def table? (c : Changes) (n : Nat) : Option RowDiff := c.tables[n]?

/-- The list diff of the list `key`, if it is observed. -/
def list? (c : Changes) (key : ListKey) : Option ListDiff := c.lists.find? (·.key == key)

def isEmpty (c : Changes) : Bool := c.tables.all (·.isEmpty) && c.lists.all (·.isEmpty)

/-- Room for table `n` in the row diffs. What lacks room at least doubles. -/
def makeRoom (tables : List RowDiff) (n : Nat) : List RowDiff :=
  if tables.length ≤ n then
    tables ++ List.replicate (max (tables.length * 2) (n + 1) - tables.length) RowDiff.empty
  else tables

/-- Change the row diff of table `n`. -/
def onTable (c : Changes) (n : Nat) (f : RowDiff → RowDiff) : Changes :=
  { c with tables := (makeRoom c.tables n).modify n f }

/-- Change the `i`-th list diff. -/
def onList (c : Changes) (i : Nat) (f : ListDiff → ListDiff) : Changes :=
  { c with lists := c.lists.modify i f }

/-- An untouched diff for each of the keys, once for a key listed several times. -/
def observing (keys : List ListKey) : Changes :=
  ⟨[], (keys.foldl (fun ds k => if ds.any (·.key == k) then ds else ds ++ [.fresh k]) [])⟩

end Changes

end SnapshotCoordination
