import SnapshotCoordination.Document.Decoding
import SnapshotCoordination.Log.Instruction

/-!
# Logs as documents

The document form of instructions and of the values they write. An instruction with operands
is a record of one field, its name, that holds the record of its operands; one without operands
is its name alone. Field values have the same form, with the one operand in place of the record.
-/

namespace SnapshotCoordination

open Document

namespace ColumnType

/-- The name of a column type in a document. -/
def name : ColumnType → String
  | int => "Int"
  | bool => "Bool"
  | float => "Float"
  | double => "Double"
  | string => "String"
  | binary => "Binary"
  | timestamp => "Timestamp"
  | table => "Table"
  | mixed => "Mixed"
  | link => "Link"
  | linkList => "LinkList"

/-- All column types. -/
def all : List ColumnType :=
  [int, bool, float, double, string, binary, timestamp, table, mixed, link, linkList]

def encode (t : ColumnType) : Document := .text t.name

def decode? (d : Document) : Option ColumnType :=
  (name? d).bind fun s => all.find? (·.name == s)

end ColumnType

namespace LinkStrength

/-- The name of a link strength in a document. -/
def name : LinkStrength → String
  | strong => "Strong"
  | weak => "Weak"

def encode (s : LinkStrength) : Document := .text s.name

def decode? (d : Document) : Option LinkStrength :=
  (name? d).bind fun s => [strong, weak].find? (·.name == s)

end LinkStrength

namespace FieldValue

def encode : FieldValue → Document
  | int i => .record [("Int", .integer i)]
  | bool b => .record [("Bool", .bool b)]
  | float x => .record [("Float", ofOption (fun x => .fraction x.toDouble) x)]
  | double x => .record [("Double", .fraction x)]
  | string s => .record [("String", .text s)]
  | binary bytes => .record [("Binary", .list (bytes.map ofNat))]
  | timestamp i => .record [("Timestamp", .integer i)]
  | table => .text "Table"
  | mixed v => .record [("Mixed", v.encode)]
  | link row => .record [("Link", ofNat row)]
  | null => .text "Null"

/-- A value that is not nested, from the name of its kind and its operand. -/
def decodeFlat? (kind : String) (operand : Document) : Option FieldValue :=
  match kind with
  | "Int" => (int? operand).map .int
  | "Bool" => (bool? operand).map .bool
  | "Float" => (single? operand).map .float
  | "Double" => (double? operand).map .double
  | "String" => (text? operand).map .string
  | "Binary" => (list? byte? operand).map .binary
  | "Timestamp" => (int? operand).map .timestamp
  | "Link" => (nat? operand).map .link
  | "Table" => match operand with | .null => some .table | _ => none
  | "Null" => match operand with | .null => some .null | _ => none
  | _ => none

def decode? : Document → Option FieldValue
  | .text "Table" => some .table
  | .text "Null" => some .null
  | .record [("Mixed", operand)] => (decode? operand).map .mixed
  | .record [(kind, operand)] => decodeFlat? kind operand
  | _ => none

end FieldValue

namespace Instruction

def encode : Instruction → Document
  | selectTable table => .record [("SelectTable", .record [("table", ofNat table)])]
  | selectDescriptor levels => .record [("SelectDescriptor", .record [("levels", ofNat levels)])]
  | selectLinkList col row =>
    .record [("SelectLinkList", .record [("col", ofNat col), ("row", ofNat row)])]
  | insertTable table name =>
    .record [("InsertGroupLevelTable", .record [("table", ofNat table), ("name", .text name)])]
  | eraseTable table => .record [("EraseGroupLevelTable", .record [("table", ofNat table)])]
  | renameTable table name =>
    .record [("RenameGroupLevelTable", .record [("table", ofNat table), ("name", .text name)])]
  | moveTable origin target =>
    .record [("MoveGroupLevelTable", .record [("from", ofNat origin), ("to", ofNat target)])]
  | insertColumn col type name nullable =>
    .record [("InsertColumn", .record
      [("col", ofNat col), ("data_type", type.encode), ("name", .text name),
        ("nullable", .bool nullable)])]
  | insertLinkColumn col type name targetTable =>
    .record [("InsertLinkColumn", .record
      [("col", ofNat col), ("data_type", type.encode), ("name", .text name),
        ("target_table", ofNat targetTable)])]
  | eraseColumn col => .record [("EraseColumn", .record [("col", ofNat col)])]
  | eraseLinkColumn col => .record [("EraseLinkColumn", .record [("col", ofNat col)])]
  | renameColumn col name =>
    .record [("RenameColumn", .record [("col", ofNat col), ("name", .text name)])]
  | moveColumn origin target =>
    .record [("MoveColumn", .record [("from", ofNat origin), ("to", ofNat target)])]
  | addPrimaryKey col => .record [("AddPrimaryKey", .record [("col", ofNat col)])]
  | removePrimaryKey => .text "RemovePrimaryKey"
  | setLinkStrength col strength =>
    .record [("SetLinkType", .record [("col", ofNat col), ("link_type", strength.encode)])]
  | addSearchIndex col => .record [("AddSearchIndex", .record [("col", ofNat col)])]
  | removeSearchIndex col => .record [("RemoveSearchIndex", .record [("col", ofNat col)])]
  | insertRows row count priorRows =>
    .record [("InsertEmptyRows", .record
      [("row", ofNat row), ("num_rows", ofNat count), ("prior_num_rows", ofNat priorRows)])]
  | eraseRows row count priorRows unordered =>
    .record [("EraseRows", .record
      [("row", ofNat row), ("num_rows", ofNat count), ("prior_num_rows", ofNat priorRows),
        ("unordered", .bool unordered)])]
  | swapRows rowA rowB =>
    .record [("SwapRows", .record [("row_a", ofNat rowA), ("row_b", ofNat rowB)])]
  | clearTable => .text "ClearTable"
  | optimizeTable => .text "OptimizeTable"
  | set col row value =>
    .record [("Set", .record [("col", ofNat col), ("row", ofNat row), ("value", value.encode)])]
  | setUnique col row value =>
    .record [("SetUnique", .record
      [("col", ofNat col), ("row", ofNat row), ("value", value.encode)])]
  | nullifyLink col row =>
    .record [("NullifyLink", .record [("col", ofNat col), ("row", ofNat row)])]
  | insertText col row position inserted =>
    .record [("InsertSubstring", .record
      [("col", ofNat col), ("row", ofNat row), ("pos", ofNat position), ("text", .text inserted)])]
  | eraseText col row position length =>
    .record [("EraseSubstring", .record
      [("col", ofNat col), ("row", ofNat row), ("pos", ofNat position), ("len", ofNat length)])]
  | listSet index targetRow =>
    .record [("LinkListSet", .record [("index", ofNat index), ("target_row", ofNat targetRow)])]
  | listInsert index targetRow =>
    .record [("LinkListInsert", .record [("index", ofNat index), ("target_row", ofNat targetRow)])]
  | listErase index => .record [("LinkListErase", .record [("index", ofNat index)])]
  | listNullify index => .record [("LinkListNullify", .record [("index", ofNat index)])]
  | listClear oldSize => .record [("LinkListClear", .record [("old_size", ofNat oldSize)])]
  | listMove origin target =>
    .record [("LinkListMove", .record [("from", ofNat origin), ("to", ofNat target)])]
  | listSwap indexA indexB =>
    .record [("LinkListSwap", .record [("index_a", ofNat indexA), ("index_b", ofNat indexB)])]

/-- An instruction with operands, from its name and the record of its operands. -/
def decodeOperands? (name : String) (fs : Fields) : Option Instruction :=
  match name with
  | "SelectTable" => do return .selectTable (← fs.get "table" nat?)
  | "SelectDescriptor" => do return .selectDescriptor (← fs.get "levels" nat?)
  | "SelectLinkList" => do return .selectLinkList (← fs.get "col" nat?) (← fs.get "row" nat?)
  | "InsertGroupLevelTable" => do
    return .insertTable (← fs.get "table" nat?) (← fs.get "name" text?)
  | "EraseGroupLevelTable" => do return .eraseTable (← fs.get "table" nat?)
  | "RenameGroupLevelTable" => do
    return .renameTable (← fs.get "table" nat?) (← fs.get "name" text?)
  | "MoveGroupLevelTable" => do return .moveTable (← fs.get "from" nat?) (← fs.get "to" nat?)
  | "InsertColumn" => do
    return .insertColumn (← fs.get "col" nat?) (← fs.get "data_type" ColumnType.decode?)
      (← fs.get "name" text?) (← fs.get "nullable" bool?)
  | "InsertLinkColumn" => do
    return .insertLinkColumn (← fs.get "col" nat?) (← fs.get "data_type" ColumnType.decode?)
      (← fs.get "name" text?) (← fs.get "target_table" nat?)
  | "EraseColumn" => do return .eraseColumn (← fs.get "col" nat?)
  | "EraseLinkColumn" => do return .eraseLinkColumn (← fs.get "col" nat?)
  | "RenameColumn" => do return .renameColumn (← fs.get "col" nat?) (← fs.get "name" text?)
  | "MoveColumn" => do return .moveColumn (← fs.get "from" nat?) (← fs.get "to" nat?)
  | "AddPrimaryKey" => do return .addPrimaryKey (← fs.get "col" nat?)
  | "SetLinkType" => do
    return .setLinkStrength (← fs.get "col" nat?) (← fs.get "link_type" LinkStrength.decode?)
  | "AddSearchIndex" => do return .addSearchIndex (← fs.get "col" nat?)
  | "RemoveSearchIndex" => do return .removeSearchIndex (← fs.get "col" nat?)
  | "InsertEmptyRows" => do
    return .insertRows (← fs.get "row" nat?) (← fs.get "num_rows" nat?)
      (← fs.get "prior_num_rows" nat?)
  | "EraseRows" => do
    return .eraseRows (← fs.get "row" nat?) (← fs.get "num_rows" nat?)
      (← fs.get "prior_num_rows" nat?) (← fs.get "unordered" bool?)
  | "SwapRows" => do return .swapRows (← fs.get "row_a" nat?) (← fs.get "row_b" nat?)
  | "Set" => do
    return .set (← fs.get "col" nat?) (← fs.get "row" nat?) (← fs.get "value" FieldValue.decode?)
  | "SetUnique" => do
    return .setUnique (← fs.get "col" nat?) (← fs.get "row" nat?)
      (← fs.get "value" FieldValue.decode?)
  | "NullifyLink" => do return .nullifyLink (← fs.get "col" nat?) (← fs.get "row" nat?)
  | "InsertSubstring" => do
    return .insertText (← fs.get "col" nat?) (← fs.get "row" nat?)
      (← fs.get "pos" nat?) (← fs.get "text" text?)
  | "EraseSubstring" => do
    return .eraseText (← fs.get "col" nat?) (← fs.get "row" nat?)
      (← fs.get "pos" nat?) (← fs.get "len" nat?)
  | "LinkListSet" => do return .listSet (← fs.get "index" nat?) (← fs.get "target_row" nat?)
  | "LinkListInsert" => do return .listInsert (← fs.get "index" nat?) (← fs.get "target_row" nat?)
  | "LinkListErase" => do return .listErase (← fs.get "index" nat?)
  | "LinkListNullify" => do return .listNullify (← fs.get "index" nat?)
  | "LinkListClear" => do return .listClear (← fs.get "old_size" nat?)
  | "LinkListMove" => do return .listMove (← fs.get "from" nat?) (← fs.get "to" nat?)
  | "LinkListSwap" => do return .listSwap (← fs.get "index_a" nat?) (← fs.get "index_b" nat?)
  | _ => none

def decode? (d : Document) : Option Instruction :=
  match name? d with
  | some "RemovePrimaryKey" => some .removePrimaryKey
  | some "ClearTable" => some .clearTable
  | some "OptimizeTable" => some .optimizeTable
  | _ =>
    match d with
    | .record [(name, .record fs)] => decodeOperands? name fs
    | _ => none

end Instruction

namespace Log

def encode (log : Log) : Document := .list (log.map Instruction.encode)

def decode? : Document → Option Log := list? Instruction.decode?

end Log

end SnapshotCoordination
