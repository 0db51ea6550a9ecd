import SnapshotCoordination.Number.Word

/-!
# Sets of list positions

While a list is edited, the positions recorded so far have to follow the elements they stand
for. A `PositionSet` keeps its members in ascending order and offers just the two coordinate
changes this takes: renumbering the members when an element enters or leaves the list, and
carrying one position over between the list that contains the members and the list with the
members taken out.

Every operation cuts the members at a position into the part below it (`below`) and the part
from it on (`fromOn`). Members are positions of a list that has room for one more element, so
none of them is the last word when it moves up. Only the number that is carried over by `shiftWord`
and `addShiftedWord` may be any word.
-/

namespace SnapshotCoordination

/-- A set of positions, listed in ascending order by every operation below. -/
structure PositionSet where
  members : List Nat
  deriving DecidableEq

namespace PositionSet

/-- The set without members. -/
def empty : PositionSet := ⟨[]⟩

instance : EmptyCollection PositionSet := ⟨empty⟩

instance : Inhabited PositionSet := ⟨empty⟩

/-- The members before the first one at or after `i`. -/
def below (s : PositionSet) (i : Nat) : List Nat := s.members.takeWhile (· < i)

/-- The members from the first one at or after `i`. -/
def fromOn (s : PositionSet) (i : Nat) : List Nat := s.members.dropWhile (· < i)

theorem below_append_fromOn (s : PositionSet) (i : Nat) : s.below i ++ s.fromOn i = s.members :=
  List.takeWhile_append_dropWhile

def isEmpty (s : PositionSet) : Bool := s.members.isEmpty

def size (s : PositionSet) : Nat := s.members.length

/-- Whether `i` is a member. -/
def contains (s : PositionSet) (i : Nat) : Bool := (s.fromOn i).head? == some i

/-- Take `i` in; nothing changes if it is a member already. -/
def add (s : PositionSet) (i : Nat) : PositionSet :=
  if s.contains i then s else ⟨s.below i ++ i :: s.fromOn i⟩

/-- Step over the members met from `n` on, from each place to the one that `up` gives. -/
def stepOver (up : Nat → Nat) : List Nat → Nat → Nat
  | [], n => n
  | x :: xs, n => if n < x then n else stepOver up xs (up n)

/-- The position, in the list that contains the members, of the element at `n` in the list
without them. -/
def shift (s : PositionSet) (n : Nat) : Nat := stepOver (· + 1) s.members n

/-- The same for a number of no list in particular: behind the last word comes zero. -/
def shiftWord (s : PositionSet) (n : Nat) : Nat := stepOver Word.next s.members n

/-- The position, in the list without the members, of the element at `i` in the list that
contains them. -/
def unshift (s : PositionSet) (i : Nat) : Nat := i - (s.below i).length

/-- Take in the position whose place among the non-members is `n`. -/
def addShifted (s : PositionSet) (n : Nat) : PositionSet := s.add (s.shift n)

/-- The same for a number of no list in particular. -/
def addShiftedWord (s : PositionSet) (n : Nat) : PositionSet := s.add (s.shiftWord n)

/-- Follow the insertion of an element at `i`: members at or after it move up by one. -/
def shiftForInsertAt (s : PositionSet) (i : Nat) : PositionSet :=
  ⟨s.below i ++ (s.fromOn i).map (· + 1)⟩

/-- Follow the insertion of an element at `i` and record it. -/
def insertAt (s : PositionSet) (i : Nat) : PositionSet := (s.shiftForInsertAt i).add i

/-- Follow the removal of the element at `i`: it is no longer a member, and the members after
it move down by one. -/
def eraseAt (s : PositionSet) (i : Nat) : PositionSet :=
  let later := if s.contains i then (s.fromOn i).tail else s.fromOn i
  ⟨s.below i ++ later.map (· - 1)⟩

/-- The set of the positions of a list. -/
def ofList (positions : List Nat) : PositionSet := positions.foldl add empty

end PositionSet

end SnapshotCoordination
