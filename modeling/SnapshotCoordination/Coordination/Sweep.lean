/-!
# Sweeping a list

A sweep goes through a list from the front and takes out every dead entry by moving the last
entry into its place, where it is looked at next. What is left is in the order this gives, not
in the order it was in before.
-/

namespace SnapshotCoordination

namespace Sweep

variable {α : Type}

/-- The list with its last entry moved to the front. -/
def lastFirst (xs : List α) : List α :=
  match xs.getLast? with
  | some last => last :: xs.dropLast
  | none => []

/-- Look at no more than `n` entries: what is left of the list, and what was taken out, in the
order in which it was. -/
def upTo (dead : α → Bool) : Nat → List α → List α × List α
  | 0, xs => (xs, [])
  | _ + 1, [] => ([], [])
  | n + 1, x :: xs =>
    if dead x then
      let (kept, removed) := upTo dead n (lastFirst xs)
      (kept, x :: removed)
    else
      let (kept, removed) := upTo dead n xs
      (x :: kept, removed)

end Sweep

/-- Sweep a list: what is left of it, and what was taken out. -/
def sweep {α : Type} (dead : α → Bool) (xs : List α) : List α × List α :=
  Sweep.upTo dead xs.length xs

end SnapshotCoordination
