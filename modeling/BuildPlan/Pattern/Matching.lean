import BuildPlan.Assoc
import BuildPlan.Pattern.Basic

/-!
# Matching

`Pattern.ends` lists the places that a pattern leads to from a place in a text, in the order in which a
backtracking matcher finds them. `Pattern.matchesAll` asks for one at the end of the text.
-/

namespace BuildPlan

/-- A place in a text, with what the groups have captured. -/
structure Cursor where
  /-- The characters before the place, last first. -/
  before : List Char
  /-- The characters from the place on. -/
  rest : List Char
  captured : Assoc Nat (List Char) := []
  deriving DecidableEq, Repr

namespace Cursor

/-- The place some characters later, or at the end. -/
def advance (c : Cursor) : Nat → Cursor
  | 0 => c
  | n + 1 =>
    match c.rest with
    | [] => c
    | x :: rest => advance { c with before := x :: c.before, rest } n

/-- The place some characters earlier. -/
def back (c : Cursor) (n : Nat) : Cursor :=
  { c with before := c.before.drop n, rest := (c.before.take n).reverse ++ c.rest }

/-- The characters between two places. -/
def between (start finish : Cursor) : List Char :=
  start.rest.take (start.rest.length - finish.rest.length)

/-- Just one of the characters on both sides of the place is part of a word. -/
def atWordEdge (c : Cursor) (ascii : Bool) : Bool :=
  let isWord (x : Option Char) : Bool := (x.map (NamedClass.word.contains ascii)).getD false
  isWord c.before.head? != isWord c.rest.head?

/-- The place is of a given sort. -/
def isAt (c : Cursor) : Anchor → Bool
  | .start => c.before.isEmpty
  | .lineStart => c.before.isEmpty || c.before.head? = some '\n'
  | .finish => c.rest.isEmpty || c.rest = ['\n']
  | .lineFinish => c.rest.isEmpty || c.rest.head? = some '\n'
  | .absoluteEnd => c.rest.isEmpty
  | .wordEdge negated ascii =>
    -- the empty text has no word edge and nothing that is not one
    !(c.before.isEmpty && c.rest.isEmpty) && c.atWordEdge ascii != negated

end Cursor

/-- A point between two bodies of a repetition: what is left of the text, how many bodies have matched, where the
last optional one began, and what the groups have captured. -/
structure Turn where
  remaining : Nat
  count : Nat
  last : Option Nat
  captured : Assoc Nat (List Char)
  deriving DecidableEq

/-- What has been found of a repetition. -/
structure Found where
  turns : List Turn := []
  /-- The places that it leads to, last first. -/
  ends : List Cursor := []

/-- The places that a repetition leads to from a turn are added to what has been found. No more bodies are tried
once an optional one was empty, and no turn is taken again. -/
def repeatFrom (body : Cursor → List Cursor) (least : Nat) (most : Option Nat) (isLazy : Bool) :
    Nat → Nat → Option Nat → Found → Cursor → Found
  | 0, _, _, found, _ => found
  | fuel + 1, count, last, found, c =>
    -- without an upper bound only the bodies that are still needed count
    let turn : Turn := ⟨c.rest.length, if most.isNone then min count least else count, last, c.captured⟩
    if turn ∈ found.turns then found
    else
      let found := { found with turns := turn :: found.turns }
      let stop (found : Found) : Found := { found with ends := c :: found.ends }
      let again (last : Option Nat) (found : Found) : Found :=
        (body c).foldl (repeatFrom body least most isLazy fuel (count + 1) last) found
      if count < least then again last found
      else if most.all (count < ·) && last != some c.rest.length then
        if isLazy then again (some c.rest.length) (stop found) else stop (again (some c.rest.length) found)
      else stop found

/-- The places that a repetition leads to from a place. -/
def repeatedEnds (body : Cursor → List Cursor) (least : Nat) (most : Option Nat) (isLazy : Bool) (c : Cursor) :
    List Cursor :=
  (repeatFrom body least most isLazy (least + c.rest.length + 2) 0 none {} c).ends.reverse.eraseDups

namespace Pattern

/-- The places that a pattern leads to, in the order of preference. -/
def ends : Pattern → Cursor → List Cursor
  | empty, c => [c]
  | char test, c =>
    match c.rest with
    | x :: rest => if test.accepts x then [{ c with before := x :: c.before, rest }] else []
    | [] => []
  | seq a b, c => ((a.ends c).flatMap b.ends).eraseDups
  | alt a b, c => (a.ends c ++ b.ends c).eraseDups
  | capture group a, c =>
    (a.ends c).map fun finish =>
      { finish with captured := Assoc.insert finish.captured group (c.between finish) }
  | reference group ignoreCase ascii, c =>
    match Assoc.find? c.captured group with
    | none => []
    | some word =>
      let next := c.rest.take word.length
      let same := if ignoreCase then next.map (lowered ascii) = word.map (lowered ascii) else next = word
      if same then [c.advance word.length] else []
  | anchor a, c => if c.isAt a then [c] else []
  | repeated least most greed a, c =>
    let found := repeatedEnds a.ends least most (greed = .lazy) c
    if greed = .possessive then found.take 1 else found
  | atomic a, c => (a.ends c).take 1
  | ahead negated a, c =>
    match a.ends c with
    | [] => if negated then [c] else []
    | finish :: _ => if negated then [] else [{ c with captured := finish.captured }]
  | behind negated length a, c =>
    let found := if length ≤ c.before.length then a.ends (c.back length) else []
    match found with
    | [] => if negated then [c] else []
    | finish :: _ => if negated then [] else [{ c with captured := finish.captured }]

/-- The pattern matches the whole text. -/
def matchesAll (p : Pattern) (text : String) : Bool :=
  (p.ends { before := [], rest := text.toList }).any (·.rest.isEmpty)

end Pattern

end BuildPlan
