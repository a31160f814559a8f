import BuildPlan.Text.Quoted

/-!
# Reading a command line

`splitWords` splits a command line into words by the quoting rules of a POSIX shell. It gives no answer when a
quote is not closed, and none when the line asks for more than words: an operator, an expansion, a pattern or
a comment that is not quoted.
-/

namespace BuildPlan.Shell

open Text (apostrophe)

/-- Where the reader stands: between words, or in a word that is bare or between quotes at that point. -/
inductive Position where
  | between
  | bare
  | single
  | double
  deriving DecidableEq

/-- Characters that end a word. -/
def isSeparator (c : Char) : Bool := c = ' ' || c = '\t' || c = '\n'

/-- Characters that start an operator, an expansion or a pattern when they are not quoted. -/
def isSpecial (c : Char) : Bool :=
  ['|', '&', ';', '<', '>', '(', ')', '$', '\x60', '*', '?', '[', '#', '~', '!'].contains c

/-- Characters that a backslash protects between double quotes. -/
def isProtected (c : Char) : Bool := ['$', '\x60', '"', '\\', '\n'].contains c

/-- The words of the rest of a line, where `word` holds what has been read of the current word, last
character first. -/
def splitFrom : Position → List Char → List Char → Option (List (List Char))
  | .between, _, [] => some []
  | .bare, word, [] => some [word.reverse]
  | .single, _, [] => none
  | .double, _, [] => none
  | .single, word, c :: rest =>
    if c = apostrophe then splitFrom .bare word rest else splitFrom .single (c :: word) rest
  | .double, word, '\\' :: c :: rest =>
    if c = '\n' then splitFrom .double word rest
    else if isProtected c then splitFrom .double (c :: word) rest
    else splitFrom .double (c :: '\\' :: word) rest
  | .double, word, c :: rest =>
    if c = '"' then splitFrom .bare word rest
    else if isProtected c && c != '\n' then none
    else splitFrom .double (c :: word) rest
  | position, word, '\\' :: c :: rest =>
    if c = '\n' then splitFrom position word rest else splitFrom .bare (c :: word) rest
  | position, word, c :: rest =>
    if isSeparator c then
      if position = .bare then (splitFrom .between [] rest).map (word.reverse :: ·)
      else splitFrom .between [] rest
    else if c = apostrophe then splitFrom .single word rest
    else if c = '"' then splitFrom .double word rest
    else if isSpecial c || c = '\\' then none
    else splitFrom .bare (c :: word) rest

/-- The words of a command line. -/
def splitWords (line : String) : Option (List String) :=
  (splitFrom .between [] line.toList).map (·.map String.ofList)

end BuildPlan.Shell
