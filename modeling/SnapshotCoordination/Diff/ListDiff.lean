import SnapshotCoordination.PositionSet

/-!
# List diffs

What happened to one observed link list. Insertions and changes are positions of the list as
it is now, deletions and the starts of moves are positions of the list before the first
change, so every operation is carried through what is recorded already before it is
recorded itself.

An erase of an element that was inserted by the same changes is recorded as a deletion too,
and a move of an element that the same changes inserted, erased or moved can be recorded at
positions that do not rebuild the list.
-/

namespace SnapshotCoordination

/-- The link list in column `col` of row `row` of table `table`. -/
structure ListKey where
  table : Nat
  row : Nat
  col : Nat
  deriving DecidableEq

/-- A move, from a position before the first change to a position now. -/
structure ListMove where
  origin : Nat
  target : Nat
  deriving DecidableEq

/-- What happened to one link list. -/
structure ListDiff where
  key : ListKey
  inserts : PositionSet
  deletes : PositionSet
  changes : PositionSet
  moves : List ListMove
  cleared : Bool
  deriving DecidableEq

namespace ListDiff

/-- The diff of an untouched list. -/
def fresh (key : ListKey) : ListDiff := ⟨key, .empty, .empty, .empty, [], false⟩

instance : Inhabited ListDiff := ⟨fresh ⟨0, 0, 0⟩⟩

def isEmpty (d : ListDiff) : Bool :=
  !d.cleared && d.inserts.isEmpty && d.deletes.isEmpty && d.changes.isEmpty && d.moves.isEmpty

/-- The element at `i` was overwritten. -/
def set (d : ListDiff) (i : Nat) : ListDiff := { d with changes := d.changes.add i }

/-- An element was inserted at `i`. -/
def insert (d : ListDiff) (i : Nat) : ListDiff :=
  { d with
    changes := d.changes.shiftForInsertAt i
    inserts := d.inserts.insertAt i
    moves := d.moves.map fun m => if i ≤ m.target then { m with target := m.target + 1 } else m }

/-- The element at `i` was erased. -/
def erase (d : ListDiff) (i : Nat) : ListDiff :=
  let inserts := d.inserts.eraseAt i
  let kept := d.moves.filter fun m => m.target != i
  { d with
    changes := d.changes.eraseAt i
    inserts := inserts
    deletes := d.deletes.addShifted (inserts.unshift i)
    moves := kept.map fun m => if i < m.target then { m with target := m.target - 1 } else m }

/-- The elements at `i` and `j` changed places: both positions count as overwritten. -/
def swap (d : ListDiff) (i j : Nat) : ListDiff := (d.set i).set j

/-- The list was emptied: nothing recorded before matters. -/
def clear (d : ListDiff) : ListDiff :=
  { d with
    cleared := true
    changes := .empty
    inserts := .empty
    deletes := .empty
    moves := [] }

/-- The position, in the list before the first change, of the element now at `i`. -/
def originOf (d : ListDiff) (i : Nat) : Nat := d.deletes.unshift (d.inserts.unshift i)

/-- The element at `i` was taken out and put back at `j`. A move to a later position counts as
an erase followed by an insertion, a move to an earlier one as an insertion followed by an
erase; both happen at the position the element had before the first change. -/
def move (d : ListDiff) (i j : Nat) : ListDiff :=
  let origin := d.originOf i
  let changes :=
    if i < j then (d.changes.eraseAt origin).shiftForInsertAt origin
    else (d.changes.shiftForInsertAt origin).eraseAt origin
  let inserts :=
    if i < j then (d.inserts.eraseAt origin).shiftForInsertAt origin
    else (d.inserts.shiftForInsertAt origin).eraseAt origin
  { d with
    changes := changes
    inserts := inserts
    deletes := d.deletes.add origin
    moves := d.moves ++ [⟨origin, j⟩] }

end ListDiff

end SnapshotCoordination
