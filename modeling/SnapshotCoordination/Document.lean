import SnapshotCoordination.Number.Precision

/-!
# Documents

A `Document` is the form in which values are handed over to another process: null, booleans,
integers, fractions of double precision, text, lists, and records of named fields. Field names
of a record are matched by name, never by place.

`Document.write` gives the text of a document. An integer is written with no point, a fraction
always with one, so the two stay apart even if they are the same number.
-/

namespace SnapshotCoordination

/-- A value as it is handed over. -/
inductive Document where
  | null
  | bool (value : Bool)
  | integer (value : Int)
  | fraction (value : Double)
  | text (value : String)
  | list (items : List Document)
  | record (fields : List (String × Document))

namespace Document

instance : Inhabited Document := ⟨null⟩

/-- A number as a document. -/
def ofNat (n : Nat) : Document := .integer n

/-- An optional value as a document, null standing for none. -/
def ofOption {α : Type} (f : α → Document) : Option α → Document
  | some a => f a
  | none => .null

/-! ## Text -/

/-- One hexadecimal digit. -/
def hexDigit (n : Nat) : Char :=
  if n < 10 then Char.ofNat (48 + n) else Char.ofNat (87 + n)

/-- The character as it stands between quotes: quotes, backslashes and control characters are
escaped, all others stand for themselves. -/
def escape (c : Char) : List Char :=
  if c = '"' then ['\\', '"']
  else if c = '\\' then ['\\', '\\']
  else if c.toNat < 32 then
    ['\\', 'u', '0', '0', hexDigit (c.toNat / 16), hexDigit (c.toNat % 16)]
  else [c]

/-- A text between quotes. -/
def quote (s : String) : String :=
  String.ofList ('"' :: s.toList.flatMap escape ++ ['"'])

/-- The number that decimal digits stand for. -/
def numberOf (digits : List Char) : Nat := digits.foldl (fun n c => 10 * n + (c.toNat - 48)) 0

/-- Digits with zeros in front, at least `width` of them. -/
def paddedDigits (width n : Nat) : String :=
  let digits := toString n
  String.ofList (List.replicate (width - digits.length) '0') ++ digits

/-- A decimal fraction, with its point. -/
def writeDecimal (d : Decimal) : String :=
  let scale := Nat.pow 10 d.places
  let sign := if d.negative then "-" else ""
  sign ++ toString (d.digits / scale) ++ "." ++ paddedDigits (max d.places 1) (d.digits % scale)

mutual

/-- The text of a document. -/
def write : Document → String
  | .null => "null"
  | .bool true => "true"
  | .bool false => "false"
  | .integer i => toString i
  | .fraction x => writeDecimal x.fraction.toDecimal
  | .text s => quote s
  | .list items => "[" ++ writeItems items ++ "]"
  | .record fields => "\x7b" ++ writeFields fields ++ "\x7d"

/-- Items with commas between them. -/
def writeItems : List Document → String
  | [] => ""
  | [d] => write d
  | d :: ds => write d ++ "," ++ writeItems ds

/-- Named fields with commas between them. -/
def writeFields : List (String × Document) → String
  | [] => ""
  | [(name, d)] => quote name ++ ":" ++ write d
  | (name, d) :: rest => quote name ++ ":" ++ write d ++ "," ++ writeFields rest

end

end Document

end SnapshotCoordination
