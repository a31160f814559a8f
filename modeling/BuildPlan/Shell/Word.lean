import BuildPlan.Text.Quoted

/-!
# Words of a command line

`quote` writes one word so that a POSIX shell reads it back as it is: a word of safe characters stands alone,
any other goes between single quotes, with each single quote inside between double ones. `joinWords` writes a
whole command line.
-/

namespace BuildPlan.Shell

open Text (apostrophe)

/-- Characters that mean nothing special to a shell wherever they stand. -/
def isSafe (c : Char) : Bool :=
  c.isAlphanum || ['_', '@', '%', '+', '=', ':', ',', '.', '/', '-'].contains c

/-- A single quote inside single quotes: the quotes are closed, it is put between double ones, and they are
opened again. -/
def quotedApostrophe : List Char := [apostrophe, '"', apostrophe, '"', apostrophe]

/-- One character between single quotes. -/
def quotedChar (c : Char) : List Char := if c = apostrophe then quotedApostrophe else [c]

/-- The characters of a word as a command line has them. -/
def quoteChars (word : List Char) : List Char :=
  if word ≠ [] ∧ word.all isSafe then word
  else apostrophe :: word.flatMap quotedChar ++ [apostrophe]

/-- A word as a command line has it. -/
def quote (word : String) : String := String.ofList (quoteChars word.toList)

/-- The command line that consists of the given words. -/
def joinWords (words : List String) : String := " ".intercalate (words.map quote)

end BuildPlan.Shell
