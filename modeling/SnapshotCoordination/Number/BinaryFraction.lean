/-!
# Binary fractions

A `BinaryFraction` is a fraction whose denominator is a power of two, held exactly and in
lowest terms: a sign, a numerator and the number of binary places behind the point. Lowest
terms make the form unique, so two fractions are equal if and only if they are the same number
with the same sign; zero has both signs.

A fraction is written with all of its decimal digits and at least one decimal place, so what
is written denotes the very same fraction.
-/

namespace SnapshotCoordination

/-- A decimal fraction: `digits` with the point `places` from the right. -/
structure Decimal where
  negative : Bool
  digits : Nat
  places : Nat
  deriving DecidableEq

/-- The fraction `numerator / 2 ^ places`, with its sign. Zero keeps its sign. -/
structure BinaryFraction where
  negative : Bool
  numerator : Nat
  places : Nat
  lowestTerms : places = 0 ∨ numerator % 2 = 1
  deriving DecidableEq

namespace BinaryFraction

/-- Cancel common factors of two between `n` and `2 ^ e`. -/
def cancelTwos : Nat → Nat → Nat × Nat
  | n, 0 => (n, 0)
  | n, e + 1 => if n % 2 = 0 then cancelTwos (n / 2) e else (n, e + 1)

theorem cancelTwos_lowestTerms (n e : Nat) :
    (cancelTwos n e).2 = 0 ∨ (cancelTwos n e).1 % 2 = 1 := by
  induction e generalizing n with
  | zero => exact .inl rfl
  | succ e ih =>
    unfold cancelTwos
    split
    · exact ih _
    · exact .inr (by omega)

/-- The fraction `n / 2 ^ e` in lowest terms. -/
def ofScaled (negative : Bool) (n e : Nat) : BinaryFraction :=
  ⟨negative, (cancelTwos n e).1, (cancelTwos n e).2, cancelTwos_lowestTerms n e⟩

/-- All decimal digits of a fraction, with at least one place behind the point. -/
def toDecimal (x : BinaryFraction) : Decimal :=
  if x.places = 0 then ⟨x.negative, x.numerator * 10, 1⟩
  else ⟨x.negative, x.numerator * Nat.pow 5 x.places, x.places⟩

end BinaryFraction

end SnapshotCoordination
