import SnapshotCoordination.PositionSet

/-!
# Row diffs

What happened to the rows of one table. A table loses a row by moving its last row into the
freed slot, so an erase is one entry in `moves`, from the slot to the index its new occupant
came from, and one more deletion; no other row changes its index.
-/

namespace SnapshotCoordination

/-- A map from slots to rows, listed by ascending slot. -/
structure SlotMap where
  entries : List (Nat × Nat)
  deriving DecidableEq

namespace SlotMap

def empty : SlotMap := ⟨[]⟩

/-- The row recorded for `slot`. -/
def get? (m : SlotMap) (slot : Nat) : Option Nat := m.entries.lookup slot

/-- Place an entry among entries of ascending slots, over an entry of the same slot. -/
def place (slot row : Nat) : List (Nat × Nat) → List (Nat × Nat)
  | [] => [(slot, row)]
  | (s, r) :: rest =>
    if slot < s then (slot, row) :: (s, r) :: rest
    else if slot = s then (slot, row) :: rest
    else (s, r) :: place slot row rest

/-- Record `row` for `slot`, over what was recorded for it before. -/
def insert (m : SlotMap) (slot row : Nat) : SlotMap := ⟨place slot row m.entries⟩

def isEmpty (m : SlotMap) : Bool := m.entries.isEmpty

theorem lookup_place (slot row s : Nat) (entries : List (Nat × Nat)) :
    (place slot row entries).lookup s = if s = slot then some row else entries.lookup s := by
  induction entries with
  | nil =>
    by_cases h : s = slot
    · simp [place, h]
    · have hs : (s == slot) = false := by simpa using h
      simp [place, List.lookup_cons, h, hs]
  | cons e rest ih =>
    obtain ⟨s', r⟩ := e
    by_cases h : s = slot
    · subst h
      simp only [place]
      split
      · simp
      · split
        · simp
        · have hb : (s == s') = false := by simpa using ‹¬s = s'›
          simp [List.lookup_cons, hb, ih]
    · have hs : (s == slot) = false := by simpa using h
      simp only [place]
      split
      · simp [List.lookup_cons, hs]
      · split
        · subst slot; simp [List.lookup_cons, hs]
        · simp [List.lookup_cons, ih, h]

/-- A lookup after an insertion sees the new entry and the others as before. -/
theorem get?_insert (m : SlotMap) (slot row s : Nat) :
    (m.insert slot row).get? s = if s = slot then some row else m.get? s :=
  lookup_place slot row s m.entries

end SlotMap

/-- What happened to the rows of one table. -/
structure RowDiff where
  /-- The rows written to, by their index before the first change. -/
  changed : PositionSet
  /-- For a slot that got a new occupant, the index the occupant came from. -/
  moves : SlotMap
  /-- How many rows were erased. -/
  deletions : Nat
  deriving DecidableEq

namespace RowDiff

/-- The diff of an untouched table. -/
def empty : RowDiff := ⟨.empty, .empty, 0⟩

instance : Inhabited RowDiff := ⟨empty⟩

def isEmpty (d : RowDiff) : Bool := d.changed.isEmpty && d.moves.isEmpty && d.deletions == 0

/-- The index that the occupant of `slot` came from; the slot itself if no move is recorded. -/
def origin (d : RowDiff) (slot : Nat) : Nat := (d.moves.get? slot).getD slot

/-- Record a write to the row in slot `row`. -/
def markDirty (d : RowDiff) (row : Nat) : RowDiff :=
  { d with changed := d.changed.add (d.origin row) }

/-- Record the erase of `row` from a table of `priorRows` rows: the occupant of the last slot
moves into the freed one. -/
def eraseUnordered (d : RowDiff) (row priorRows : Nat) : RowDiff :=
  { d with
    moves := d.moves.insert row (d.origin (priorRows - 1))
    deletions := d.deletions + 1 }

end RowDiff

end SnapshotCoordination
