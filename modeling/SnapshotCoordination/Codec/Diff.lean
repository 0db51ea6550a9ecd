import SnapshotCoordination.Document.Decoding
import SnapshotCoordination.Diff.Changes

/-!
# Diffs as documents

The document form of position sets, row diffs, list diffs and changes. The changed rows of a
row diff come back in ascending order and each once, whatever their order in the document; the
slots of its moves are the field names of a record, written as decimal numerals.
-/

namespace SnapshotCoordination

open Document

namespace PositionSet

def encode (s : PositionSet) : Document := .record [("indices", .list (s.members.map ofNat))]

/-- The members are taken as they are listed. -/
def decode? (d : Document) : Option PositionSet := do
  let fs ← fields? ["indices"] d
  return ⟨← fs.get "indices" (list? nat?)⟩

end PositionSet

namespace ListKey

def encode (k : ListKey) : Document :=
  .record [("table", ofNat k.table), ("row", ofNat k.row), ("col", ofNat k.col)]

def decode? (d : Document) : Option ListKey := do
  let fs ← fields? ["table", "row", "col"] d
  return ⟨← fs.get "table" nat?, ← fs.get "row" nat?, ← fs.get "col" nat?⟩

end ListKey

namespace ListMove

def encode (m : ListMove) : Document :=
  .record [("from", ofNat m.origin), ("to", ofNat m.target)]

def decode? (d : Document) : Option ListMove := do
  let fs ← fields? ["from", "to"] d
  return ⟨← fs.get "from" nat?, ← fs.get "to" nat?⟩

end ListMove

namespace SlotMap

/-- The number that a decimal numeral without leading zeros stands for. -/
def slot? (name : String) : Option Nat :=
  let cs := name.toList
  if cs ≠ [] ∧ cs.all Char.isDigit ∧ (cs.head? ≠ some '0' ∨ cs = ['0']) then
    if numberOf cs < natLimit then some (numberOf cs) else none
  else none

def encode (m : SlotMap) : Document :=
  .record (m.entries.map fun e => (toString e.1, ofNat e.2))

/-- Record one named field after another. -/
def insertFields (m : SlotMap) : Fields → Option SlotMap
  | [] => some m
  | (name, d) :: rest => do insertFields (m.insert (← slot? name) (← nat? d)) rest

def decode? : Document → Option SlotMap
  | .record fs => insertFields .empty fs
  | _ => none

end SlotMap

namespace RowDiff

def encode (d : RowDiff) : Document :=
  .record [
    ("changed", .list (d.changed.members.map ofNat)),
    ("moves", d.moves.encode),
    ("deletions", ofNat d.deletions)]

def decode? (d : Document) : Option RowDiff := do
  let fs ← fields? ["changed", "moves", "deletions"] d
  let changed ← fs.get "changed" (list? nat?)
  return ⟨.ofList changed, ← fs.get "moves" SlotMap.decode?, ← fs.get "deletions" nat?⟩

end RowDiff

namespace ListDiff

def encode (d : ListDiff) : Document :=
  .record [
    ("key", d.key.encode),
    ("inserts", d.inserts.encode),
    ("deletes", d.deletes.encode),
    ("changes", d.changes.encode),
    ("moves", .list (d.moves.map ListMove.encode)),
    ("did_clear", .bool d.cleared)]

def decode? (d : Document) : Option ListDiff := do
  let fs ← fields? ["key", "inserts", "deletes", "changes", "moves", "did_clear"] d
  return {
    key := ← fs.get "key" ListKey.decode?
    inserts := ← fs.get "inserts" PositionSet.decode?
    deletes := ← fs.get "deletes" PositionSet.decode?
    changes := ← fs.get "changes" PositionSet.decode?
    moves := ← fs.get "moves" (list? ListMove.decode?)
    cleared := ← fs.get "did_clear" bool? }

end ListDiff

namespace Changes

def encode (c : Changes) : Document :=
  .record [
    ("tables", .list (c.tables.map RowDiff.encode)),
    ("link_lists", .list (c.lists.map ListDiff.encode))]

def decode? (d : Document) : Option Changes := do
  let fs ← fields? ["tables", "link_lists"] d
  let tables ← fs.get "tables" (Document.list? RowDiff.decode?)
  return ⟨tables, ← fs.get "link_lists" (Document.list? ListDiff.decode?)⟩

end Changes

end SnapshotCoordination
