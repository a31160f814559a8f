import BuildPlan.Text.CharSet

/-!
# Blank characters

The characters that separate words: the ASCII controls from tab to carriage return and the four information
separators, next line, and the Unicode spaces and line separators.
-/

namespace BuildPlan.Text

/-- Spaces and separators of lines and words. -/
def blanks : CharSet := ⟨[
  9, 14, 28, 33, 133, 134, 160, 161, 5760, 5761, 8192, 8203, 8232, 8234, 8239, 8240, 8287, 8288, 12288,
  12289]⟩

/-- The character separates words. -/
def isBlank (c : Char) : Bool := blanks.contains c

/-- A blank that may surround a number: the information separators U+001C to U+001F may not. -/
def isNumeralBlank (c : Char) : Bool := isBlank c && !(28 ≤ c.toNat && c.toNat ≤ 31)

end BuildPlan.Text
