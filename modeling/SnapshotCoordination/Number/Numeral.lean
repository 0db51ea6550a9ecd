import SnapshotCoordination.Number.Precision
import SnapshotCoordination.Number.Word

/-!
# Numerals

A `Numeral` is a decimal number with an exponent. Its value in double precision is made of two
numbers of double precision: its digits, as an integer, are multiplied with or divided by the
power of ten. Each of the two is rounded, and so is the result; the value of a numeral with
many digits may therefore be next to the fraction that is nearest to it.

Only so many digits count as fit in a word of 64 bits. Of the others, those in front of the
point count as zeros, and those behind it do not count at all.
-/

namespace SnapshotCoordination

/-- The number `digits * 10 ^ exponent`, with its sign. -/
structure Numeral where
  negative : Bool
  digits : Nat
  exponent : Int
  deriving DecidableEq

namespace Numeral

/-- Digits behind a number, as long as the number fits in a word: the number then, and the
digits that are left. -/
def extend : Nat → List Char → Nat × List Char
  | n, [] => (n, [])
  | n, c :: cs =>
    let m := 10 * n + (c.toNat - 48)
    if m < Word.limit then extend m cs else (n, c :: cs)

/-- The numeral with the digits `whole` in front of the point, the digits `behind` behind it,
and an exponent. -/
def ofDigits (negative : Bool) (whole behind : List Char) (exponent : Int) : Numeral :=
  let (n, zeros) := extend 0 whole
  let (n, ignored) := extend n behind
  ⟨negative, n, exponent + zeros.length - (behind.length - ignored.length)⟩

/-! ## Values -/

/-- The exponent of the largest power of ten in double precision. -/
def largestPower : Nat := 308

/-- A power of ten in double precision. -/
def powerOfTen? (k : Nat) : Option Double := Precision.double.nearest? false (Nat.pow 10 k) 1

/-- A fraction multiplied with a power of ten. Zero stays zero, and nothing else can be
multiplied with a power of ten that is too large for double precision. -/
def scaleUp? (x : Double) (k : Nat) : Option Double :=
  if k ≤ largestPower then do x.times? (← powerOfTen? k)
  else if x.isZero then some x
  else none

/-- A fraction divided by a power of ten. It is divided by the largest one as long as it has
to be and anything is left of it. -/
def scaleDown? (x : Double) (k : Nat) : Option Double :=
  if k ≤ largestPower then do x.over? (← powerOfTen? k)
  else if x.isZero then some x
  else do
    let x ← x.over? (← powerOfTen? largestPower)
    scaleDown? x (k - largestPower)
termination_by k
decreasing_by simp only [largestPower] at *; omega

/-- The value of a numeral in double precision, none if it is too large. -/
def value? (n : Numeral) : Option Double := do
  let x ← Precision.double.nearest? n.negative n.digits 1
  if 0 ≤ n.exponent then scaleUp? x n.exponent.toNat else scaleDown? x (-n.exponent).toNat

end Numeral

end SnapshotCoordination
