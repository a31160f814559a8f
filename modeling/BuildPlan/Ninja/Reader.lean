import BuildPlan.Ninja.File

/-!
# Reading Ninja files

What Ninja makes of the texts that a file holds. `unescapeValue` reads a value without variables and `expandValue` one
with variables, `readPath` reads one path of a build line, and `BuildLine.read` takes a whole build line apart.
-/

namespace BuildPlan.Ninja

/-! ### Values and paths -/

/-- Every pair of dollar signs becomes one, from left to right. -/
def unescapeValue : List Char → List Char
  | [] => []
  | '$' :: '$' :: rest => '$' :: unescapeValue rest
  | c :: rest => c :: unescapeValue rest

/-- Characters that end a path. -/
def endsPath (c : Char) : Bool := c = ' ' || c = ':' || c = '|' || c = '\n'

/-- Characters that a dollar sign protects in a path. -/
def isProtectedInPath (c : Char) : Bool := c = '$' || c = ' ' || c = ':'

/-- The path at the beginning of a text, and the text after it; `skipping` says that spaces do not count because
a line has just been continued. There is no answer when the path has a variable or a dollar sign that means
nothing. -/
def readPathFrom : Bool → List Char → Option (List Char × List Char)
  | _, [] => some ([], [])
  | true, ' ' :: rest => readPathFrom true rest
  | _, '$' :: c :: rest =>
    if c = '\n' then readPathFrom true rest
    else if isProtectedInPath c then do
      let (path, rest) ← readPathFrom false rest
      return (c :: path, rest)
    else none
  | _, c :: rest =>
    if endsPath c then some ([], c :: rest)
    else if c = '$' then none
    else do
      let (path, rest) ← readPathFrom false rest
      return (c :: path, rest)

/-- The path at the beginning of a text, and the text after it. -/
def readPath (text : List Char) : Option (List Char × List Char) := readPathFrom false text

/-! ### Variables -/

/-- All dollar signs stand in pairs, from left to right, so that none of them begins anything else. -/
def pairsDollars : List Char → Bool
  | [] => true
  | '$' :: '$' :: rest => pairsDollars rest
  | c :: rest => c ≠ '$' && pairsDollars rest

/-- Characters of a name that stands behind a dollar sign. -/
def isNameChar (c : Char) : Bool := c.isAlphanum || c = '_' || c = '-'

/-- Where the reader of a value stands. The characters of a name come last first. -/
inductive ValuePosition where
  | plain
  | dollar
  | name (reversed : List Char)
  | braces (reversed : List Char)
  /-- At the beginning of a line that goes on with a value, where spaces do not count. -/
  | indented
  deriving DecidableEq

/-- The value of the variable whose name has these characters, last first. -/
def valueOf (lookup : String → String) (reversed : List Char) : List Char :=
  (lookup (String.ofList reversed.reverse)).toList

/-- A character that belongs to nothing that a dollar sign began. -/
def readPlain (c : Char) : List Char × ValuePosition := if c = '$' then ([], .dollar) else ([c], .plain)

/-- What one character adds to a value, and where the reader stands behind it. There is no answer for a dollar sign
that means nothing. -/
def ValuePosition.step (lookup : String → String) (position : ValuePosition) (c : Char) :
    Option (List Char × ValuePosition) :=
  match position with
  | .plain => some (readPlain c)
  | .indented => if c = ' ' then some ([], .indented) else some (readPlain c)
  | .dollar =>
    if isProtectedInPath c then some ([c], .plain)
    else if c = '\n' then some ([], .indented)
    else if c = '{' then some ([], .braces [])
    else if isNameChar c then some ([], .name [c])
    else none
  | .name reversed =>
    if isNameChar c then some ([], .name (c :: reversed))
    else
      let (text, position) := readPlain c
      some (valueOf lookup reversed ++ text, position)
  | .braces reversed =>
    if c = '}' then if reversed = [] then none else some (valueOf lookup reversed, .plain)
    else if isNameChar c || c = '.' then some ([], .braces (c :: reversed))
    else none

/-- What the end of the text adds to a value. -/
def ValuePosition.finish (lookup : String → String) : ValuePosition → Option (List Char)
  | .plain | .indented => some []
  | .name reversed => some (valueOf lookup reversed)
  | .dollar | .braces _ => none

/-- What the rest of a value comes to. -/
def expandFrom (lookup : String → String) (position : ValuePosition) : List Char → Option (List Char)
  | [] => position.finish lookup
  | c :: rest => do
    let (text, position) ← position.step lookup c
    return text ++ (← expandFrom lookup position rest)

/-- What a value comes to when each variable has the value that `lookup` gives. -/
def expandValue (lookup : String → String) (value : String) : Option String :=
  (expandFrom lookup .plain value.toList).map String.ofList

/-! ### Build lines -/

/-- A word of a build line. -/
inductive Lexeme where
  | word (text : String)
  | colon
  deriving DecidableEq, Repr

/-- The word whose characters come last first, unless it is empty. -/
def wordOf (reversed : List Char) : List Lexeme :=
  if reversed = [] then [] else [.word (String.ofList reversed.reverse)]

/-- The words of a build line, where `word` has the characters of the current word, last first. A dollar sign
takes the next character as it is; a space or a colon ends a word. -/
def lexemesFrom (word : List Char) : List Char → List Lexeme
  | [] => wordOf word
  | '$' :: c :: rest => lexemesFrom (c :: word) rest
  | ' ' :: rest => wordOf word ++ lexemesFrom [] rest
  | ':' :: rest => wordOf word ++ .colon :: lexemesFrom [] rest
  | c :: rest => lexemesFrom (c :: word) rest

/-- The words of a build line. -/
def lexemes (line : String) : List Lexeme := lexemesFrom [] line.toList

/-- The text of a word. -/
def Lexeme.text? : Lexeme → Option String
  | .word text => some text
  | .colon => none

/-- The words before the first mark, and those after it. -/
def splitAtMark (mark : String) (words : List String) : List String × List String :=
  (words.takeWhile (· ≠ mark), (words.dropWhile (· ≠ mark)).drop 1)

/-- The build line that a text stands for, without comments and variables. -/
def BuildLine.read (line : String) : Option BuildLine := do
  match lexemes line with
  | .word "build" :: rest =>
    let outs ← (rest.takeWhile (· ≠ .colon)).mapM Lexeme.text?
    match rest.dropWhile (· ≠ .colon) with
    | .colon :: .word rule :: inputs =>
      let words ← inputs.mapM Lexeme.text?
      let (before, orderOnly) := splitAtMark "||" words
      let (ins, implicit) := splitAtMark "|" before
      return { outs, rule, ins, implicit, orderOnly }
    | _ => none
  | _ => none

end BuildPlan.Ninja
