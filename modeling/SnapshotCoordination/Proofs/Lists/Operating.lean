import SnapshotCoordination.Proofs.Lists.Positions

/-!
# Operating on position sets

A set goes through any number of operations. What carries them all is that the members ascend:
every operation keeps it (`ascending_perform`), so a set that starts out so stays so
(`ascending_after`), and no subtraction that `unshift` and `eraseAt` make falls below zero in it
(`Ascending.sound`).
-/

namespace SnapshotCoordination

namespace PositionSet

/-- What is done to a position set. -/
inductive Operation
  | add (i : Nat)
  | addShifted (n : Nat)
  | shiftForInsertAt (i : Nat)
  | insertAt (i : Nat)
  | eraseAt (i : Nat)
  | clear
  deriving DecidableEq

def Operation.perform : Operation → PositionSet → PositionSet
  | .add i, s => s.add i
  | .addShifted n, s => s.addShifted n
  | .shiftForInsertAt i, s => s.shiftForInsertAt i
  | .insertAt i, s => s.insertAt i
  | .eraseAt i, s => s.eraseAt i
  | .clear, _ => .empty

/-- A set after some operations. -/
def after (s : PositionSet) (ops : List Operation) : PositionSet :=
  ops.foldl (fun s op => op.perform s) s

/-- The members that move down when the element at `i` is erased. -/
def later (s : PositionSet) (i : Nat) : List Nat :=
  if s.contains i then (s.fromOn i).tail else s.fromOn i

variable {s : PositionSet}

/-- An erase takes them down by one. -/
theorem eraseAt_eq (s : PositionSet) (i : Nat) :
    s.eraseAt i = ⟨s.below i ++ (s.later i).map (· - 1)⟩ := rfl

theorem ascending_perform (h : s.Ascending) (op : Operation) : (op.perform s).Ascending := by
  cases op with
  | add i => exact ascending_add h
  | addShifted n => exact ascending_add h
  | shiftForInsertAt i => exact ascending_shiftForInsertAt h
  | insertAt i => exact ascending_insertAt h
  | eraseAt i => exact ascending_eraseAt h
  | clear => exact ascending_empty

theorem ascending_after (h : s.Ascending) (ops : List Operation) : (s.after ops).Ascending := by
  induction ops generalizing s with
  | nil => exact h
  | cons op ops ih => exact ih (ascending_perform h op)

/-- The set of the positions of a list is built by taking in one after the other. -/
theorem ofList_eq_after (positions : List Nat) :
    ofList positions = empty.after (positions.map .add) := by
  rw [after, List.foldl_map]
  rfl

theorem ascending_ofList (positions : List Nat) : (ofList positions).Ascending := by
  rw [ofList_eq_after]
  exact ascending_after ascending_empty _

/-- No subtraction falls below zero: `unshift` takes away the members below a position from the
position, and `eraseAt` takes one away from each member that moves down. -/
structure Sound (s : PositionSet) : Prop where
  unshift : ∀ i, (s.below i).length ≤ i
  eraseAt : ∀ i, ∀ x ∈ s.later i, 1 ≤ x

theorem Ascending.sound (h : s.Ascending) : s.Sound where
  unshift i := by
    have hsum := length_below_add_unshift (i := i) h
    omega
  eraseAt i x hx := by
    have hx := ((mem_later h).mp hx).2
    omega

end PositionSet

end SnapshotCoordination
