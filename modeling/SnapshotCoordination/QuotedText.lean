import SnapshotCoordination.QuotedText.Unprintable

/-!
# Quoted text

A text between double quotes as it is shown to a person: a quote and a backslash get a
backslash in front, and a character that is not shown as itself is written by name or by number.
-/

namespace SnapshotCoordination

namespace QuotedText

/-- The lower-case hexadecimal digits of a number. -/
def hex (n : Nat) : List Char := Nat.toDigits 16 n

/-- A character between quotes. -/
def escape (c : Char) : List Char :=
  if c = '"' then ['\\', '"']
  else if c = '\\' then ['\\', '\\']
  else if c = '\n' then ['\\', 'n']
  else if c = '\r' then ['\\', 'r']
  else if c = '\t' then ['\\', 't']
  else if c.toNat = 0 then ['\\', '0']
  else if isUnprintable c then ['\\', 'u', Char.ofNat 123] ++ hex c.toNat ++ [Char.ofNat 125]
  else [c]

/-- A text between quotes. -/
def quote (s : String) : String := String.ofList ('"' :: s.toList.flatMap escape ++ ['"'])

end QuotedText

end SnapshotCoordination
