/-!
# Snapshot versions

A `Version` names one snapshot of a file: the commit count it reflects and a sub-index
within that count. Versions are ordered by number first and index second. Number zero is
never a snapshot; it stands for "no version asked for".
-/

namespace SnapshotCoordination

/-- An exact snapshot of a file. -/
structure Version where
  number : Nat
  index : Nat
  deriving DecidableEq

namespace Version

/-- The version that names no snapshot. -/
def unset : Version := ⟨0, 0⟩

instance : Inhabited Version := ⟨unset⟩

/-- A version names no snapshot exactly when its number is zero, whatever its index. -/
def isUnset (v : Version) : Bool := v.number == 0

/-- Versions are ordered by number, then by index. -/
instance : LE Version := ⟨fun a b => a.number < b.number ∨ a.number = b.number ∧ a.index ≤ b.index⟩

instance : LT Version := ⟨fun a b => a.number < b.number ∨ a.number = b.number ∧ a.index < b.index⟩

theorem le_def {a b : Version} :
    a ≤ b ↔ a.number < b.number ∨ a.number = b.number ∧ a.index ≤ b.index := Iff.rfl

theorem lt_def {a b : Version} :
    a < b ↔ a.number < b.number ∨ a.number = b.number ∧ a.index < b.index := Iff.rfl

instance (a b : Version) : Decidable (a ≤ b) :=
  inferInstanceAs (Decidable (a.number < b.number ∨ a.number = b.number ∧ a.index ≤ b.index))

instance (a b : Version) : Decidable (a < b) :=
  inferInstanceAs (Decidable (a.number < b.number ∨ a.number = b.number ∧ a.index < b.index))

/-- How two versions compare. -/
def compare (a b : Version) : Ordering :=
  if a < b then .lt else if b < a then .gt else .eq

/-- The earlier of two versions. -/
def earlier (a b : Version) : Version := if b < a then b else a

/-- The earliest version of a list, or none for the empty list. -/
def earliest? : List Version → Option Version
  | [] => none
  | v :: vs => some (vs.foldl earlier v)

/-- A version is written `v<number>.<index>`. -/
def render (v : Version) : String := s!"v{v.number}.{v.index}"

theorem le_refl (a : Version) : a ≤ a := Or.inr ⟨rfl, Nat.le_refl _⟩

theorem le_trans {a b c : Version} (h₁ : a ≤ b) (h₂ : b ≤ c) : a ≤ c := by
  simp only [le_def] at *; omega

theorem le_antisymm {a b : Version} (h₁ : a ≤ b) (h₂ : b ≤ a) : a = b := by
  obtain ⟨n, i⟩ := a
  obtain ⟨m, j⟩ := b
  simp only [le_def, mk.injEq] at *
  omega

theorem not_lt {a b : Version} : ¬ a < b ↔ b ≤ a := by
  simp only [le_def, lt_def]; omega

theorem not_le {a b : Version} : ¬ a ≤ b ↔ b < a := by
  simp only [le_def, lt_def]; omega

theorem le_of_lt {a b : Version} (h : a < b) : a ≤ b := by
  simp only [le_def, lt_def] at *; omega

end Version

end SnapshotCoordination
