import BuildPlan.Text.Hex
import BuildPlan.Text.Printable

/-!
# Quoted texts

Messages show a text between quotation marks on one line: `quoted` picks the mark, and `quotedChar` writes one
character. A backslash and the mark itself are preceded by a backslash, tab and line ends have letters of their
own, and other characters that cannot be printed are written by their code point in two, four or eight
hexadecimal digits.
-/

namespace BuildPlan.Text

/-- The straight single quotation mark. -/
def apostrophe : Char := '\x27'

/-- One character of a quoted text whose quotation mark is `mark`. -/
def quotedChar (mark c : Char) : List Char :=
  if c = mark ∨ c = '\\' then ['\\', c]
  else if c = '\t' then ['\\', 't']
  else if c = '\n' then ['\\', 'n']
  else if c = '\r' then ['\\', 'r']
  else if isPrintable c then [c]
  else if c.toNat < 0x100 then '\\' :: 'x' :: hexPadded 2 c.toNat
  else if c.toNat < 0x10000 then '\\' :: 'u' :: hexPadded 4 c.toNat
  else '\\' :: 'U' :: hexPadded 8 c.toNat

/-- Single marks are used unless the text holds one of them and no double mark. -/
def quotationMark (s : List Char) : Char :=
  if s.contains apostrophe && !s.contains '"' then '"' else apostrophe

/-- The text between quotation marks, on one line. -/
def quoted (s : String) : String :=
  let chars := s.toList
  let mark := quotationMark chars
  String.ofList (mark :: chars.flatMap (quotedChar mark) ++ [mark])

end BuildPlan.Text
