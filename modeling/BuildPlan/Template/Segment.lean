import BuildPlan.Text.Blank
import BuildPlan.Text.DecimalDigit
import BuildPlan.Text.Quoted
import BuildPlan.Text.WordChar

/-!
# Segments of templates

A template text is split into literal text and tags. A tag that prints a value stands in double braces, one that
says what to do in braces with percent signs, and comments, between number signs, fall away. What is in a tag is
a list of `Token`s.
-/

namespace BuildPlan.Template

open Text (apostrophe isBlank isWordChar isDecimalDigit)

/-- A word of a tag. -/
inductive Token where
  | name (name : String)
  | string (text : String)
  | mark (mark : Char)
  deriving DecidableEq, Repr

/-- A part of a template text. -/
inductive Segment where
  | text (text : List Char)
  | print (tokens : List Token)
  | tag (tokens : List Token)
  deriving DecidableEq, Repr

/-- Every line end becomes a line feed. -/
def unifyLines : List Char → List Char
  | [] => []
  | '\r' :: '\n' :: rest => '\n' :: unifyLines rest
  | '\r' :: rest => '\n' :: unifyLines rest
  | c :: rest => c :: unifyLines rest

/-- The character that a backslash and a letter stand for. -/
def escaped? : Char → Option Char
  | 'a' => some '\x07'
  | 'b' => some '\x08'
  | 'f' => some '\x0c'
  | 'n' => some '\n'
  | 'r' => some '\r'
  | 't' => some '\t'
  | 'v' => some '\x0b'
  | '\\' => some '\\'
  | '"' => some '"'
  | c => if c = apostrophe then some apostrophe else none

/-- The text of a string up to its closing mark, and what follows it. -/
def takeString (mark : Char) : List Char → Option (List Char × List Char)
  | [] => none
  | '\\' :: c :: rest => do
    let (text, rest) ← takeString mark rest
    match escaped? c with
    | some d => return (d :: text, rest)
    | none => return ('\\' :: c :: text, rest)
  | c :: rest =>
    if c = mark then some ([], rest)
    else do
      let (text, rest) ← takeString mark rest
      return (c :: text, rest)

/-- The mark at the end of a tag that prints a value. -/
def printEnd : List Char := ['\x7d', '\x7d']

/-- The mark at the end of a tag that says what to do. -/
def tagEnd : List Char := ['%', '\x7d']

/-- The tokens of a tag up to its closing mark and what follows it. A minus sign in front of the closing mark
takes away the blanks after the tag. -/
def takeTokens (closing : List Char) : Nat → List Char → Option (List Token × List Char)
  | 0, _ => none
  | _, [] => none
  | fuel + 1, c :: rest =>
    if closing.isPrefixOf (c :: rest) then some ([], (c :: rest).drop closing.length)
    else if c = '-' && closing.isPrefixOf rest then some ([], (rest.drop closing.length).dropWhile isBlank)
    else if c = '+' && closing = tagEnd && closing.isPrefixOf rest then some ([], rest.drop closing.length)
    else if isBlank c then takeTokens closing fuel rest
    else if c = '"' || c = apostrophe then do
      let (text, rest) ← takeString c rest
      let (tokens, rest) ← takeTokens closing fuel rest
      return (.string (String.ofList text) :: tokens, rest)
    else if isWordChar c && !isDecimalDigit c then do
      let name := (c :: rest).takeWhile isWordChar
      let (tokens, rest) ← takeTokens closing fuel ((c :: rest).dropWhile isWordChar)
      return (.name (String.ofList name) :: tokens, rest)
    else if ['(', ')', ',', '|'].contains c then do
      let (tokens, rest) ← takeTokens closing fuel rest
      return (.mark c :: tokens, rest)
    else none

/-- What follows a comment; a minus sign at its end takes away the blanks after it. -/
def skipComment : List Char → Option (List Char)
  | [] => none
  | '-' :: '#' :: '\x7d' :: rest => some (rest.dropWhile isBlank)
  | '#' :: '\x7d' :: rest => some rest
  | _ :: rest => skipComment rest

/-- A minus sign after the opening mark of a tag takes away the blanks before the tag. -/
def openTag (before rest : List Char) : List Char × List Char :=
  match rest with
  | '-' :: rest => (before.dropWhile isBlank, rest)
  | '+' :: rest => (before, rest)
  | rest => (before, rest)

/-- A text segment, unless it is empty; its characters come last first. -/
def textSegment (reversed : List Char) : List Segment :=
  if reversed = [] then [] else [.text reversed.reverse]

/-- The segments of a text, where `before` has the characters of the current text, last first. -/
def takeSegments : Nat → List Char → List Char → Option (List Segment)
  | 0, _, _ => none
  | _, before, [] => some (textSegment before)
  | fuel + 1, before, '\x7b' :: '\x7b' :: rest => do
    let (before, rest) := openTag before rest
    let (tokens, rest) ← takeTokens printEnd (rest.length + 1) rest
    return textSegment before ++ .print tokens :: (← takeSegments fuel [] rest)
  | fuel + 1, before, '\x7b' :: '%' :: rest => do
    let (before, rest) := openTag before rest
    let (tokens, rest) ← takeTokens tagEnd (rest.length + 1) rest
    return textSegment before ++ .tag tokens :: (← takeSegments fuel [] rest)
  | fuel + 1, before, '\x7b' :: '#' :: rest => do
    let (before, rest) := openTag before rest
    return textSegment before ++ (← takeSegments fuel [] (← skipComment rest))
  | fuel + 1, before, c :: rest => takeSegments fuel (c :: before) rest

/-- The segments of a template text; there are none if a tag is not closed or has a character that means
nothing. -/
def segments (text : String) : Option (List Segment) :=
  let chars := unifyLines text.toList
  takeSegments (chars.length + 1) [] chars

end BuildPlan.Template
