import SnapshotCoordination.Document
import SnapshotCoordination.Number.Word

/-!
# Reading values out of documents

A reader of a type is a function from documents to optional values; it gives none when the
document does not denote a value of the type. Numbers have to be integers in the range of
their type. The fields of a record may stand in any order, fields nobody asks for are ignored,
and a missing one is refused. A record may also be given as the list of its fields' values in
the order of their declaration.
-/

namespace SnapshotCoordination

namespace Document

/-- The first number that no count, position or identifier reaches. -/
def natLimit : Nat := Word.limit

/-- A number below `limit`. -/
def natBelow? (limit : Nat) : Document → Option Nat
  | .integer (.ofNat n) => if n < limit then some n else none
  | _ => none

/-- A count, position or identifier. -/
def nat? : Document → Option Nat := natBelow? natLimit

/-- A byte. -/
def byte? : Document → Option Nat := natBelow? 256

/-- A signed number of 64 bits. -/
def int? : Document → Option Int
  | .integer i => if -Int.pow 2 63 ≤ i ∧ i < Int.pow 2 63 then some i else none
  | _ => none

def bool? : Document → Option Bool
  | .bool b => some b
  | _ => none

def text? : Document → Option String
  | .text s => some s
  | _ => none

/-- A list, all of whose items are read by `f`. -/
def list? {α : Type} (f : Document → Option α) : Document → Option (List α)
  | .list items => items.mapM f
  | _ => none

/-- Null, or a value that `f` reads. -/
def option? {α : Type} (f : Document → Option α) : Document → Option (Option α)
  | .null => some none
  | d => (f d).map some

/-- A fraction, or an integer rounded to double precision. -/
def double? : Document → Option Double
  | .fraction x => some x
  | .integer i => Precision.double.ofInt? i
  | _ => none

/-- A fraction or an integer, rounded to single precision. It may be too large for that. -/
def single? : Document → Option (Option Single)
  | .fraction x => some (Precision.single.round? x.fraction)
  | .integer i => some (Precision.single.ofInt? i)
  | _ => none

/-- The named fields of a record. -/
abbrev Fields := List (String × Document)

/-- The fields of a record whose declaration names `names`. -/
def fields? (names : List String) : Document → Option Fields
  | .record fields => some fields
  | .list items => if items.length = names.length then some (names.zip items) else none
  | _ => none

/-- As `fields?`, but a list may leave out fields at its end. -/
def someFields? (names : List String) : Document → Option Fields
  | .record fields => some fields
  | .list items => if items.length ≤ names.length then some (names.zip items) else none
  | _ => none

/-- A field that has to be there. -/
def Fields.get {α : Type} (fs : Fields) (name : String) (f : Document → Option α) : Option α :=
  (fs.lookup name).bind f

/-- A field that has a default. -/
def Fields.getD {α : Type} (fs : Fields) (name : String) (f : Document → Option α)
    (default : α) : Option α :=
  match fs.lookup name with
  | some d => f d
  | none => some default

/-- A value given by one of several names: the name alone, or the name with null. -/
def name? : Document → Option String
  | .text s => some s
  | .record [(s, .null)] => some s
  | _ => none

end Document

end SnapshotCoordination
