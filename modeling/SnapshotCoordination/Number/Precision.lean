import SnapshotCoordination.Number.BinaryFraction

/-!
# Precisions

A `Precision` says which binary fractions a floating-point column can hold: how many
significant bits, how many places behind the point, and below which power of two. A number is
rounded to the nearest fraction of a precision, a tie going to the even neighbour; one that is
too large for every fraction of the precision has no rounding.

A precision holds what a coarser one holds (`Holds.mono`), and rounding leaves alone what the
precision holds (`round?_of_holds`).
-/

namespace SnapshotCoordination

/-- What a floating-point column can hold. -/
structure Precision where
  /-- The significant bits of a fraction. -/
  bits : Nat
  /-- The most places behind the point. -/
  places : Nat
  /-- All fractions are below `2 ^ top`. -/
  top : Nat

namespace Precision

/-- The precision of a column of type `float`. -/
def single : Precision := ⟨24, 149, 128⟩

/-- The precision of a column of type `double`. -/
def double : Precision := ⟨53, 1074, 1024⟩

/-- Whether a fraction is one of a precision: only the first bits of its numerator are set, it
has not too many places, and it is not too large. -/
def Holds (p : Precision) (x : BinaryFraction) : Prop :=
  x.numerator % Nat.pow 2 (x.numerator.log2 + 1 - p.bits) = 0 ∧ x.places ≤ p.places ∧
    x.numerator < Nat.pow 2 (p.top + x.places)

instance (p : Precision) (x : BinaryFraction) : Decidable (p.Holds x) :=
  inferInstanceAs (Decidable (_ ∧ _ ∧ _))

theorem Holds.mono {p q : Precision} {x : BinaryFraction} (bits : p.bits ≤ q.bits)
    (places : p.places ≤ q.places) (top : p.top ≤ q.top) (h : p.Holds x) : q.Holds x := by
  obtain ⟨hb, hp, ht⟩ := h
  refine ⟨Nat.mod_eq_zero_of_dvd ?_, Nat.le_trans hp places, Nat.lt_of_lt_of_le ht ?_⟩
  · exact Nat.dvd_trans (Nat.pow_dvd_pow 2 (by omega)) (Nat.dvd_of_mod_eq_zero hb)
  · exact Nat.pow_le_pow_right (by decide) (by omega)

/-- A fraction of a precision. -/
structure Value (p : Precision) where
  fraction : BinaryFraction
  holds : p.Holds fraction
  deriving DecidableEq

/-! ## Rounding -/

/-- The quotient `a / b` to the nearest integer, a tie going to the even one. -/
def nearest (a b : Nat) : Nat :=
  let q := a / b
  let r := a % b
  if 2 * r < b then q else if b < 2 * r then q + 1 else q + q % 2

/-- The exponent of the largest power of two that is not above `a / b`. -/
def floorLog2 (a b : Nat) : Int :=
  let e : Int := a.log2 - b.log2
  if b * Nat.pow 2 (a.log2 - b.log2) ≤ a * Nat.pow 2 (b.log2 - a.log2) then e else e - 1

/-- The place of the last bit that a fraction near `a / b` can have. It is negative if it is in
front of the point. -/
def lastPlace (p : Precision) (a b : Nat) : Int := min p.places (p.bits - 1 - floorLog2 a b)

/-- The quotient `a / b` to the nearest multiple of the bit at a place. -/
def nearestAt (place : Int) (negative : Bool) (a b : Nat) : BinaryFraction :=
  if 0 ≤ place then .ofScaled negative (nearest (a * Nat.pow 2 place.toNat) b) place.toNat
  else .ofScaled negative (nearest a (b * Nat.pow 2 (-place).toNat) * Nat.pow 2 (-place).toNat) 0

/-- A fraction as one of a precision, if it is one. -/
def value? (p : Precision) (x : BinaryFraction) : Option p.Value :=
  if h : p.Holds x then some ⟨x, h⟩ else none

/-- The fraction of a precision nearest to `a / b`. -/
def nearest? (p : Precision) (negative : Bool) (a b : Nat) : Option p.Value :=
  p.value? (nearestAt (p.lastPlace a b) negative a b)

/-- The fraction of a precision nearest to a fraction. -/
def round? (p : Precision) (x : BinaryFraction) : Option p.Value :=
  if p.Holds x then p.value? x else p.nearest? x.negative x.numerator (Nat.pow 2 x.places)

/-- The fraction of a precision nearest to an integer. -/
def ofInt? (p : Precision) (i : Int) : Option p.Value := p.nearest? (i < 0) i.natAbs 1

theorem round?_of_holds {p : Precision} (x : p.Value) : p.round? x.fraction = some x := by
  simp [round?, value?, x.holds]

namespace Value

variable {p : Precision}

/-- Whether a fraction is zero, of either sign. -/
def isZero (x : p.Value) : Bool := x.fraction.numerator == 0

/-- The product of two fractions of a precision, rounded. -/
def times? (x y : p.Value) : Option p.Value :=
  p.nearest? (x.fraction.negative != y.fraction.negative)
    (x.fraction.numerator * y.fraction.numerator)
    (Nat.pow 2 (x.fraction.places + y.fraction.places))

/-- The quotient of two fractions of a precision, rounded. -/
def over? (x y : p.Value) : Option p.Value :=
  p.nearest? (x.fraction.negative != y.fraction.negative)
    (x.fraction.numerator * Nat.pow 2 y.fraction.places)
    (y.fraction.numerator * Nat.pow 2 x.fraction.places)

end Value

end Precision

/-- A fraction of single precision. -/
abbrev Single : Type := Precision.single.Value

/-- A fraction of double precision. -/
abbrev Double : Type := Precision.double.Value

/-- A fraction of single precision is one of double precision. -/
def Single.toDouble (x : Single) : Double :=
  ⟨x.fraction, x.holds.mono (by decide) (by decide) (by decide)⟩

end SnapshotCoordination
