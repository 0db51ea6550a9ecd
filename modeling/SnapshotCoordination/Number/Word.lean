/-!
# Words

Table numbers, rows, positions and counts are words: numbers of 64 bits. One more than the last
word is zero.

It takes a number that may be any word to see that. A log creates tables under whatever numbers it
likes, and any number can be carried over into a set of positions; what comes behind such a number
is `Word.next`. All others are counted on as plain numbers, for they stay away from the last word: a
row is below the number of rows of its table, a position below the length of its list, a table that
has a row diff below the number of row diffs. These are words as well, before a change and after it.
-/

namespace SnapshotCoordination

namespace Word

/-- The first number that is not a word. -/
def limit : Nat := UInt64.size

/-- The word behind `n`; zero is behind the last one. -/
def next (n : Nat) : Nat := (n + 1) % limit

theorem next_of_lt {n : Nat} (h : n + 1 < limit) : next n = n + 1 := Nat.mod_eq_of_lt h

end Word

end SnapshotCoordination
