import BuildPlan.Assoc
import BuildPlan.Pattern.Basic
import BuildPlan.Text.Hex

/-!
# Reading patterns

`Pattern.read?` reads the usual notation of regular expressions: literals and escapes, sets, the dot, groups and
references to them, assertions, alternatives, and repetitions, which may be lazy or possessive. Options stand at
the beginning or in front of the body of a group.
-/

namespace BuildPlan.Pattern

/-- What has been read so far, and how. -/
structure ReaderState where
  rest : List Char
  options : PatternOptions := {}
  /-- The number of groups that have been opened. -/
  groups : Nat := 0
  /-- The lengths of the groups that have been closed. -/
  closed : Assoc Nat (Nat × Option Nat) := []
  names : Assoc String Nat := []

/-- A reader that fails when the text is no pattern. -/
abbrev Reader := StateT ReaderState Option

/-- Whether a pattern may be repeated. -/
inductive Repeatable where
  | yes
  /-- It is an anchor. -/
  | anchor
  /-- It is a repetition itself. -/
  | repetition
  deriving DecidableEq

/-- A pattern in a sequence. -/
structure Piece where
  pattern : Pattern
  repeatable : Repeatable := .yes

namespace Reader

/-! ### Characters -/

/-- The next character stays. -/
def peek? : Reader (Option Char) := do return (← get).rest.head?

/-- The next character is taken. -/
def next : Reader Char := do
  match (← get).rest with
  | [] => failure
  | c :: rest =>
    modify fun s => { s with rest }
    return c

/-- A character is taken if it comes next. -/
def takes (c : Char) : Reader Bool := do
  if (← peek?) = some c then
    discard next
    return true
  return false

/-- A character has to come next. -/
def expect (c : Char) : Reader Unit := do if !(← takes c) then failure

/-- The characters of a kind that come next, at most as many as said. -/
def takeSome (most : Nat) (isPart : Char → Bool) : Reader (List Char) := do
  let found := ((← get).rest.take most).takeWhile isPart
  modify fun s => { s with rest := s.rest.drop found.length }
  return found

/-- All characters of a kind that come next. -/
def takeAll (isPart : Char → Bool) : Reader (List Char) := do takeSome (← get).rest.length isPart

/-! ### Tests of one character -/

/-- A test with the options in force. -/
def charTest (items : List CharItem) (negated : Bool) : Reader Pattern := do
  let o := (← get).options
  return .char { items, negated, ignoreCase := o.ignoreCase, ascii := o.ascii }

/-- The part of a set that holds one code point. -/
def single (n : Nat) : CharItem := .range n n

/-- The number that digits of a base stand for. -/
def numberOf (base : Nat) (digits : List Char) : Nat :=
  digits.foldl (fun n c => base * n + (Text.hexValue? c).getD 0) 0

/-- A digit of an octal number. -/
def isOctal (c : Char) : Bool := '0' ≤ c && c ≤ '7'

/-- A hexadecimal digit. -/
def isHex (c : Char) : Bool := (Text.hexValue? c).isSome

/-- The code point of exactly so many hexadecimal digits. -/
def hexCode (count : Nat) : Reader Nat := do
  let digits ← takeSome count isHex
  if digits.length < count then failure
  return numberOf 16 digits

/-- The code points of escapes of one letter. -/
def letterEscape? : Char → Option Nat
  | 'a' => some 7
  | 'f' => some 12
  | 'n' => some 10
  | 'r' => some 13
  | 't' => some 9
  | 'v' => some 11
  | _ => none

/-- The named classes of escapes of one letter. -/
def classEscape? : Char → Option CharItem
  | 'd' => some (.named .digit false)
  | 'D' => some (.named .digit true)
  | 's' => some (.named .blank false)
  | 'S' => some (.named .blank true)
  | 'w' => some (.named .word false)
  | 'W' => some (.named .word true)
  | _ => none

/-- The code point of an escape that is the same in sets and outside, after its first character. -/
def codeEscape (c : Char) : Reader Nat := do
  match letterEscape? c with
  | some n => return n
  | none =>
    match c with
    | 'x' => hexCode 2
    | 'u' => hexCode 4
    | 'U' =>
      let n ← hexCode 8
      if n < 0x110000 then return n else failure
    | c => if c.isAlphanum then failure else return c.toNat

/-- A part of a set that starts with a backslash. -/
def setEscape : Reader CharItem := do
  let c ← next
  match classEscape? c with
  | some item => return item
  | none =>
    if c = 'b' then return single 8
    else if isOctal c then
      let n := numberOf 8 (c :: (← takeSome 2 isOctal))
      if n ≤ 0o377 then return single n else failure
    else return single (← codeEscape c)

/-- One character or class of a set. -/
def setItem (c : Char) : Reader CharItem := if c = '\\' then setEscape else return single c.toNat

/-- The range between two parts of a set, which must be single characters in their order. -/
def rangeOf : CharItem → CharItem → Option CharItem
  | .range a a', .range b b' => if a = a' ∧ b = b' ∧ a ≤ b then some (.range a b) else none
  | _, _ => none

/-- The parts of a set up to its closing bracket, which counts as a character when it comes first. -/
def setItems : Nat → List CharItem → Reader (List CharItem)
  | 0, _ => failure
  | fuel + 1, items => do
    let c ← next
    if c = ']' && !items.isEmpty then return items
    let first ← setItem c
    if ← takes '-' then
      let c ← next
      if c = ']' then return items ++ [first, single '-'.toNat]
      let second ← setItem c
      setItems fuel (items ++ [← rangeOf first second])
    else setItems fuel (items ++ [first])

/-- A set after its opening bracket. -/
def bracketSet : Reader Pattern := do
  let negated ← takes '^'
  charTest (← setItems (← get).rest.length []) negated

/-! ### Escapes -/

/-- A reference to a group, which must be closed. -/
def reference (group : Nat) : Reader Piece := do
  if !Assoc.contains (← get).closed group then failure
  let o := (← get).options
  return { pattern := .reference group o.ignoreCase o.ascii }

/-- An escape that starts with a digit other than zero: a reference, or three octal digits. -/
def digitEscape (c : Char) : Reader Piece := do
  match ← takeSome 1 Char.isDigit with
  | [] => reference (numberOf 10 [c])
  | d :: _ =>
    if isOctal c && isOctal d then
      match ← takeSome 1 isOctal with
      | [] => reference (numberOf 10 [c, d])
      | e :: _ =>
        let n := numberOf 8 [c, d, e]
        if n ≤ 0o377 then return { pattern := ← charTest [single n] false } else failure
    else reference (numberOf 10 [c, d])

/-- A piece that starts with a backslash. -/
def escape : Reader Piece := do
  let ascii := (← get).options.ascii
  let anchor (a : Anchor) : Reader Piece := return { pattern := .anchor a, repeatable := .anchor }
  let c ← next
  match c with
  | 'A' => anchor .start
  | 'Z' => anchor .absoluteEnd
  | 'b' => anchor (.wordEdge false ascii)
  | 'B' => anchor (.wordEdge true ascii)
  | '0' => return { pattern := ← charTest [single (numberOf 8 (← takeSome 2 isOctal))] false }
  | c =>
    if c.isDigit then digitEscape c
    else
      match classEscape? c with
      | some item => return { pattern := ← charTest [item] false }
      | none => return { pattern := ← charTest [single (← codeEscape c)] false }

/-! ### Repetitions -/

/-- The bounds in braces; the text stays as it is when it is not of that form. -/
def bounds : Reader (Option (Nat × Option Nat)) := do
  let before ← get
  if (← peek?) = some '}' then return none
  let low ← takeAll Char.isDigit
  let high ← if ← takes ',' then takeAll Char.isDigit else pure low
  if ← takes '}' then
    let least := numberOf 10 low
    let most := if high.isEmpty then none else some (numberOf 10 high)
    if most.any (· < least) then failure
    return some (least, most)
  else
    set before
    return none

/-- The last piece with a repetition. -/
def repeatLast (pieces : List Piece) (least : Nat) (most : Option Nat) : Reader (List Piece) := do
  match pieces with
  | [] => failure
  | piece :: earlier =>
    if piece.repeatable ≠ .yes then failure
    let greed ← if ← takes '?' then pure Greed.lazy
      else if ← takes '+' then pure Greed.possessive
      else pure Greed.greedy
    return { pattern := .repeated least most greed piece.pattern, repeatable := .repetition } :: earlier

/-! ### Options -/

/-- The options with one of them, by its letter, set or taken back. -/
def setOption (o : PatternOptions) (value : Bool) : Char → Option PatternOptions
  | 'i' => some { o with ignoreCase := value }
  | 's' => some { o with dotAll := value }
  | 'm' => some { o with multiLine := value }
  | 'x' => some { o with verbose := value }
  | 'a' => some { o with ascii := value }
  | 'u' => some { o with ascii := !value }
  | _ => none

/-- Options by their letters. At most one of `a` and `u` may be set, and neither may be taken back. -/
def setOptions (o : PatternOptions) (on off : List Char) : Option PatternOptions := do
  if on.contains 'a' && on.contains 'u' then none
  else if off.any fun c => c = 'a' || c = 'u' || on.contains c then none
  else
    let o ← on.foldlM (fun o c => setOption o true c) o
    off.foldlM (fun o c => setOption o false c) o

/-- A letter that can stand for an option. -/
def isOptionLetter (c : Char) : Bool := ['i', 's', 'm', 'x', 'a', 'u'].contains c

/-! ### Groups and sequences -/

/-- A name of a group. -/
def isGroupName (name : List Char) : Bool :=
  name.all Text.isWordChar && !(name.head?.map Text.isDecimalDigit).getD true

/-- A name of a group up to the character that ends it. -/
def groupName (finish : Char) : Reader String := do
  let name ← takeAll (· ≠ finish)
  expect finish
  if isGroupName name then return String.ofList name else failure

/-- A group is opened; its number is the answer. -/
def openGroup (name : Option String) : Reader Nat := do
  let number := (← get).groups + 1
  match name with
  | some name =>
    if Assoc.contains (← get).names name then failure
    modify fun s => { s with groups := number, names := Assoc.insert s.names name number }
  | none => modify fun s => { s with groups := number }
  return number

/-- The lengths of a pattern. -/
def lengthsOf (p : Pattern) : Reader (Nat × Option Nat) := do
  let closed := (← get).closed
  return p.lengths fun group => (Assoc.find? closed group).getD (0, none)

/-- The pattern of pieces, the last of which comes first. -/
def joined : List Piece → Pattern
  | [] => .empty
  | [piece] => piece.pattern
  | piece :: earlier => .seq (joined earlier) piece.pattern

/-- A group that captures, after its opening bracket, where `body` reads the inside. -/
def captureGroup (body : Reader Pattern) (name : Option String) : Reader Piece := do
  let group ← openGroup name
  let p ← body
  expect ')'
  let lengths ← lengthsOf p
  modify fun s => { s with closed := Assoc.insert s.closed group lengths }
  return { pattern := .capture group p }

/-- An assertion that looks ahead or behind. -/
def lookAround (body : Reader Pattern) (behind negated : Bool) : Reader Piece := do
  let p ← body
  expect ')'
  if behind then
    let (least, most) ← lengthsOf p
    if most = some least then return { pattern := .behind negated least p } else failure
  else return { pattern := .ahead negated p }

/-- A group with options of its own, or options for all that follows, which is possible at the beginning. -/
def optionGroup (body : Reader Pattern) (atStart : Bool) : Reader (Option Piece) := do
  let outside := (← get).options
  let on ← takeAll isOptionLetter
  let off ← if ← takes '-' then
      let off ← takeAll isOptionLetter
      if off.isEmpty || (← peek?) ≠ some ':' then failure
      pure off
    else if on.isEmpty then failure
    else pure []
  let options ← setOptions outside on off
  modify fun s => { s with options }
  if ← takes ':' then
    let p ← body
    expect ')'
    modify fun s => { s with options := outside }
    return some { pattern := p }
  else
    expect ')'
    if atStart then return none else failure

/-- A group with a question mark, which has been read. -/
def extension (body : Reader Pattern) (atStart : Bool) : Reader (Option Piece) := do
  match ← peek? with
  | none => failure
  | some ':' =>
    discard next
    let p ← body
    expect ')'
    return some { pattern := p }
  | some '>' =>
    discard next
    let p ← body
    expect ')'
    return some { pattern := .atomic p }
  | some '#' =>
    discard (takeAll (· ≠ ')'))
    expect ')'
    return none
  | some '=' =>
    discard next
    return some (← lookAround body false false)
  | some '!' =>
    discard next
    return some (← lookAround body false true)
  | some '<' =>
    discard next
    let c ← next
    if c = '=' then return some (← lookAround body true false)
    else if c = '!' then return some (← lookAround body true true)
    else failure
  | some 'P' =>
    discard next
    let c ← next
    if c = '<' then return some (← captureGroup body (some (← groupName '>')))
    else if c = '=' then
      match Assoc.find? (← get).names (← groupName ')') with
      | some group => return some (← reference group)
      | none => failure
    else failure
  | some _ => optionGroup body atStart

/-- Blanks and comments that do not count, if it is so. -/
def skipBlanks : Nat → Reader Unit
  | 0 => return
  | fuel + 1 => do
    if !(← get).options.verbose then return
    match ← peek? with
    | some '#' =>
      discard (takeAll (· ≠ '\n'))
      skipBlanks fuel
    | some c =>
      if [' ', '\t', '\n', '\r', '\x0b', '\x0c'].contains c then
        discard next
        skipBlanks fuel
    | none => return

mutual

/-- Alternatives up to a closing bracket or the end. -/
def alternatives : Nat → Bool → Reader Pattern
  | 0, _ => failure
  | fuel + 1, isTop => do
    let first ← sequence fuel isTop []
    if ← takes '|' then return .alt first (← alternatives fuel false) else return first

/-- Pieces up to a bar, a closing bracket or the end; `atStart` says that the whole pattern starts here. -/
def sequence : Nat → Bool → List Piece → Reader Pattern
  | 0, _, _ => failure
  | fuel + 1, atStart, pieces => do
    skipBlanks (← get).rest.length
    match ← peek? with
    | none | some '|' | some ')' => return joined pieces
    | some c =>
      discard next
      let add (piece : Piece) : Reader Pattern := sequence fuel atStart (piece :: pieces)
      let times (least : Nat) (most : Option Nat) : Reader Pattern := do
        sequence fuel atStart (← repeatLast pieces least most)
      let anchor (a : Anchor) : Reader Pattern := add { pattern := .anchor a, repeatable := .anchor }
      let literal : Reader Pattern := do add { pattern := ← charTest [single c.toNat] false }
      let o := (← get).options
      match c with
      | '\\' => add (← escape)
      | '[' => add { pattern := ← bracketSet }
      | '*' => times 0 none
      | '+' => times 1 none
      | '?' => times 0 (some 1)
      | '{' =>
        match ← bounds with
        | some (least, most) => times least most
        | none => literal
      | '.' => add { pattern := ← charTest (if o.dotAll then [] else [single 10]) true }
      | '^' => anchor (if o.multiLine then .lineStart else .start)
      | '$' => anchor (if o.multiLine then .lineFinish else .finish)
      | '(' =>
        let body : Reader Pattern := alternatives fuel false
        if ← takes '?' then
          match ← extension body (atStart && pieces.isEmpty) with
          | some piece => add piece
          | none => sequence fuel atStart pieces
        else add (← captureGroup body none)
      | _ => literal

end

end Reader

/-- The pattern that a text stands for. -/
def read? (text : String) : Option Pattern := do
  let chars := text.toList
  let (p, s) ← (Reader.alternatives (3 * chars.length + 3) true).run { rest := chars }
  if s.rest.isEmpty then some p else none

end BuildPlan.Pattern
