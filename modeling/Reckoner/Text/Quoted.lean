import Reckoner.Text.Hex
import Reckoner.Text.Printable

/-!
# Quoted text

A text shown inside a message stands between two marks on one line. The mark is the apostrophe,
unless the text holds an apostrophe and no double quote. A backslash goes before the mark and
before a backslash; tab, line feed and carriage return have short escapes; every other character
that is not printable is shown by its code point in two, four or eight hexadecimal digits.
-/

namespace Reckoner.Text

/-- The mark that stands on both sides of the quoted text. -/
def quoteMark (cs : List Char) : Char :=
  if '\'' ∈ cs ∧ '"' ∉ cs then '"' else '\''

/-- One character as it stands between two marks. -/
def escaped (mark c : Char) : List Char :=
  if c = mark ∨ c = '\\' then ['\\', c]
  else if c = '\t' then ['\\', 't']
  else if c = '\n' then ['\\', 'n']
  else if c = '\r' then ['\\', 'r']
  else if isPrintable c then [c]
  else if c.toNat < 0x100 then '\\' :: 'x' :: hex 2 c.toNat
  else if c.toNat < 0x10000 then '\\' :: 'u' :: hex 4 c.toNat
  else '\\' :: 'U' :: hex 8 c.toNat

/-- The text between two marks, on one line. -/
def quoted (s : String) : String :=
  let mark := quoteMark s.toList
  String.ofList (mark :: s.toList.flatMap (escaped mark) ++ [mark])

end Reckoner.Text
