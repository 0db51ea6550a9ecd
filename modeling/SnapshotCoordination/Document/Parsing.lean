import SnapshotCoordination.Directory
import SnapshotCoordination.Document
import SnapshotCoordination.Number.Numeral

/-!
# Reading the text of a document

`Document.parse?` reads what `Document.write` writes, and every other spelling of a document:
with blanks around its tokens, with characters written by number, with exponents.

A numeral with a point or an exponent is a fraction even if its value is whole; so are minus
zero, a sign that no integer has, and an integer beyond 64 bits. A numeral too large for double
precision is refused. If a field of a record is named twice, the later value counts. Lists and
records nest only so deep.
-/

namespace SnapshotCoordination

namespace Document

/-- A reader of the beginning of a text: what it read, and the rest of the text. -/
abbrev Scan (α : Type) : Type := List Char → Option (α × List Char)

namespace Scan

def isBlank (c : Char) : Bool := c == ' ' || c == '\t' || c == '\n' || c == '\r'

/-- The text without the blanks it begins with. -/
def skipBlanks (cs : List Char) : List Char := cs.dropWhile isBlank

/-! ## Numerals -/

/-- Digits, at least one of them. -/
def digits : Scan (List Char) := fun cs =>
  match cs.takeWhile Char.isDigit with
  | [] => none
  | ds => some (ds, cs.dropWhile Char.isDigit)

/-- A sign, if there is one: whether it is a minus, and the rest. -/
def sign : List Char → Bool × List Char
  | '-' :: cs => (true, cs)
  | '+' :: cs => (false, cs)
  | cs => (false, cs)

/-- The digits behind a point, none if there is no point. -/
def fraction : Scan (List Char)
  | '.' :: cs => digits cs
  | cs => some ([], cs)

/-- An exponent, if there is one. -/
def exponent : Scan (Option Int)
  | [] => some (none, [])
  | c :: cs =>
    if c == 'e' || c == 'E' then do
      let (negative, cs) := sign cs
      let (ds, rest) ← digits cs
      return (some (if negative then -(numberOf ds : Int) else numberOf ds), rest)
    else some (none, c :: cs)

/-- The integer of a sign and an amount, if it fits in 64 bits. Minus zero is none. -/
def integer? (negative : Bool) (n : Nat) : Option Document :=
  if !negative then if n < Word.limit then some (.integer n) else none
  else if n ≠ 0 ∧ n ≤ Nat.pow 2 63 then some (.integer (-n))
  else none

/-- A numeral. Its whole part has no zero in front of another digit. -/
def numeral : Scan Document := fun cs => do
  let (negative, cs) := sign cs
  let (whole, cs) ← digits cs
  if whole.head? == some '0' && whole.length != 1 then none
  else
    let (behind, cs) ← fraction cs
    let (e, rest) ← exponent cs
    let whole? := if behind.isEmpty && e.isNone then integer? negative (numberOf whole) else none
    match whole? with
    | some d => return (d, rest)
    | none =>
      let n := Numeral.ofDigits negative whole behind (e.getD 0)
      return (.fraction (← n.value?), rest)

/-! ## Text -/

/-- The value of a hexadecimal digit. -/
def hexValue? (c : Char) : Option Nat :=
  if c.isDigit then some (c.toNat - 48)
  else if 'a' ≤ c ∧ c ≤ 'f' then some (c.toNat - 87)
  else if 'A' ≤ c ∧ c ≤ 'F' then some (c.toNat - 55)
  else none

/-- A number of four hexadecimal digits. -/
def unit : Scan Nat
  | a :: b :: c :: d :: rest => do
    return (4096 * (← hexValue? a) + 256 * (← hexValue? b) + 16 * (← hexValue? c) + (← hexValue? d),
      rest)
  | _ => none

/-- Whether a number is the first half of a character written in two. -/
def isFirstHalf (n : Nat) : Bool := 0xd800 ≤ n && n < 0xdc00

/-- Whether a number is the second half of a character written in two. -/
def isSecondHalf (n : Nat) : Bool := 0xdc00 ≤ n && n < 0xe000

/-- A character written by number, in two halves if it is beyond four digits. -/
def numbered : Scan Char := fun cs => do
  let (n, rest) ← unit cs
  if isFirstHalf n then
    match rest with
    | '\\' :: 'u' :: more => do
      let (m, rest) ← unit more
      if isSecondHalf m then
        return (Char.ofNat (0x10000 + 0x400 * (n - 0xd800) + (m - 0xdc00)), rest)
      else none
    | _ => none
  else if isSecondHalf n then none
  else return (Char.ofNat n, rest)

/-- A character behind a backslash. -/
def escaped : Scan Char
  | [] => none
  | c :: rest =>
    match c with
    | '"' | '\\' | '/' => some (c, rest)
    | 'b' => some ('\x08', rest)
    | 'f' => some ('\x0c', rest)
    | 'n' => some ('\n', rest)
    | 'r' => some ('\r', rest)
    | 't' => some ('\t', rest)
    | 'u' => numbered rest
    | _ => none

/-- The characters up to the closing quote. Each takes a step, of which there are `n`. -/
def quoted : Nat → Scan (List Char)
  | 0, _ => none
  | _ + 1, [] => none
  | n + 1, c :: cs =>
    if c == '"' then some ([], cs)
    else do
      let (d, rest) ← if c == '\\' then escaped cs else if c.toNat < 32 then none else some (c, cs)
      let (ds, rest) ← quoted n rest
      return (d :: ds, rest)

/-! ## Documents -/

/-- How deep lists and records nest in one another. -/
def maxDepth : Nat := 127

mutual

/-- A document. It takes a step, and so does every item and field in it. Lists and records in it
nest at most `room` deep. -/
def document : Nat → Nat → Scan Document
  | 0, _, _ => none
  | n + 1, room, cs =>
    match skipBlanks cs with
    | [] => none
    | 'n' :: 'u' :: 'l' :: 'l' :: rest => some (.null, rest)
    | 't' :: 'r' :: 'u' :: 'e' :: rest => some (.bool true, rest)
    | 'f' :: 'a' :: 'l' :: 's' :: 'e' :: rest => some (.bool false, rest)
    | '"' :: rest => do
      let (s, rest) ← quoted (rest.length + 1) rest
      return (.text (String.ofList s), rest)
    | '[' :: rest =>
      if room = 0 then none
      else match skipBlanks rest with
        | ']' :: rest => some (.list [], rest)
        | rest => do
          let (ds, rest) ← items n (room - 1) rest
          return (.list ds, rest)
    | '\x7b' :: rest =>
      if room = 0 then none
      else match skipBlanks rest with
        | '\x7d' :: rest => some (.record [], rest)
        | rest => do
          let (fs, rest) ← fields n (room - 1) rest
          return (.record (fs.foldl (fun fs (name, d) => Directory.place name d fs) []), rest)
    | c :: rest => if c == '-' || c.isDigit then numeral (c :: rest) else none

/-- The items of a list, up to its end. -/
def items : Nat → Nat → Scan (List Document)
  | 0, _, _ => none
  | n + 1, room, cs => do
    let (d, rest) ← document n room cs
    match skipBlanks rest with
    | ',' :: rest => do
      let (ds, rest) ← items n room rest
      return (d :: ds, rest)
    | ']' :: rest => return ([d], rest)
    | _ => none

/-- The fields of a record, up to its end. -/
def fields : Nat → Nat → Scan (List (String × Document))
  | 0, _, _ => none
  | n + 1, room, cs =>
    match skipBlanks cs with
    | '"' :: rest => do
      let (name, rest) ← quoted (rest.length + 1) rest
      match skipBlanks rest with
      | ':' :: rest => do
        let (d, rest) ← document n room rest
        match skipBlanks rest with
        | ',' :: rest => do
          let (fs, rest) ← fields n room rest
          return ((String.ofList name, d) :: fs, rest)
        | '\x7d' :: rest => return ([(String.ofList name, d)], rest)
        | _ => none
      | _ => none
    | _ => none

end

end Scan

/-- The document of a text. No document takes more than two steps for each of its characters. -/
def parse? (text : String) : Option Document := do
  let cs := text.toList
  let (d, rest) ← Scan.document (2 * cs.length + 2) Scan.maxDepth cs
  if (Scan.skipBlanks rest).isEmpty then return d else none

end Document

end SnapshotCoordination
