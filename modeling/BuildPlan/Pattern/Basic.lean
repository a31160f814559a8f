import BuildPlan.Text.Blank
import BuildPlan.Text.DecimalDigit
import BuildPlan.Text.Lowercase
import BuildPlan.Text.WordChar

/-!
# Patterns

A `Pattern` is a regular expression with captures, back references, assertions and three sorts of repetition. The
options of a pattern, such as whether case counts, are part of the places that they apply to.
-/

namespace BuildPlan

/-- Classes of characters that have a name. -/
inductive NamedClass where
  | digit
  | blank
  | word
  deriving DecidableEq, Repr

/-- A part of a set of characters. -/
inductive CharItem where
  | range (first last : Nat)
  | named (name : NamedClass) (negated : Bool)
  deriving DecidableEq, Repr

/-- Options of a pattern. -/
structure PatternOptions where
  ignoreCase : Bool := false
  /-- A line end does not stop the dot. -/
  dotAll : Bool := false
  /-- Lines have starts and ends of their own. -/
  multiLine : Bool := false
  /-- Named classes and cases know ASCII only. -/
  ascii : Bool := false
  /-- Blanks and comments between the items do not count. -/
  verbose : Bool := false
  deriving DecidableEq, Repr

/-- A test of one character. -/
structure CharTest where
  items : List CharItem
  negated : Bool := false
  ignoreCase : Bool := false
  ascii : Bool := false
  deriving DecidableEq, Repr

/-- Places in a text. -/
inductive Anchor where
  | start
  | lineStart
  /-- The end, or before a line end that is the last character. -/
  | finish
  | lineFinish
  | absoluteEnd
  | wordEdge (negated ascii : Bool)
  deriving DecidableEq, Repr

/-- What a repetition tries first; a possessive one never gives back. -/
inductive Greed where
  | greedy
  | lazy
  | possessive
  deriving DecidableEq, Repr

/-- A regular expression. -/
inductive Pattern where
  | empty
  | char (test : CharTest)
  | seq (first second : Pattern)
  | alt (first second : Pattern)
  | capture (group : Nat) (body : Pattern)
  | reference (group : Nat) (ignoreCase ascii : Bool)
  | anchor (anchor : Anchor)
  | repeated (least : Nat) (most : Option Nat) (greed : Greed) (body : Pattern)
  /-- Only the first match of the body counts. -/
  | atomic (body : Pattern)
  /-- The body matches, or does not match, from here on. -/
  | ahead (negated : Bool) (body : Pattern)
  /-- The body, whose matches have a fixed length, matches or does not match up to here. -/
  | behind (negated : Bool) (length : Nat) (body : Pattern)
  deriving DecidableEq, Repr

/-! ### Characters -/

/-- The character belongs to a named class. -/
def NamedClass.contains (name : NamedClass) (ascii : Bool) (c : Char) : Bool :=
  (!ascii || c.toNat < 128) &&
    match name with
    | .digit => Text.isDecimalDigit c
    | .blank => Text.isBlank c && (!ascii || !(28 ≤ c.toNat && c.toNat ≤ 31))
    | .word => Text.isWordChar c

/-- The lower-case form of a character. -/
def lowered (ascii : Bool) (c : Char) : Char := if ascii then c.toLower else Text.toLowercase c

/-- The code points that stand for the same letter as a character. -/
def sameLetters (ascii : Bool) (c : Char) : List Nat :=
  if ascii then [c.toNat, c.toLower.toNat, c.toUpper.toNat] else Text.letterForms c

/-- The character belongs to a part of a set. -/
def CharItem.contains (item : CharItem) (ignoreCase ascii : Bool) (c : Char) : Bool :=
  match item with
  | .range first last =>
    if ignoreCase then (sameLetters ascii c).any fun n => first ≤ n && n ≤ last
    else first ≤ c.toNat && c.toNat ≤ last
  | .named name negated => name.contains ascii (if ignoreCase then lowered ascii c else c) != negated

/-- The character passes the test. -/
def CharTest.accepts (t : CharTest) (c : Char) : Bool :=
  t.items.any (·.contains t.ignoreCase t.ascii c) != t.negated

/-! ### Lengths -/

namespace Pattern

/-- The least and the greatest length of a match; repetition without bound has no greatest. -/
def lengths (width : Nat → Nat × Option Nat) : Pattern → Nat × Option Nat
  | empty | anchor _ | ahead .. | behind .. => (0, some 0)
  | char _ => (1, some 1)
  | seq a b =>
    let x := a.lengths width
    let y := b.lengths width
    (x.1 + y.1, do return (← x.2) + (← y.2))
  | alt a b =>
    let x := a.lengths width
    let y := b.lengths width
    (min x.1 y.1, do return max (← x.2) (← y.2))
  | capture _ a | atomic a => a.lengths width
  | reference group _ _ => width group
  | repeated least most _ a =>
    let x := a.lengths width
    (least * x.1, if x.2 = some 0 then some 0 else do return (← most) * (← x.2))

end Pattern

end BuildPlan
