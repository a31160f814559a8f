import BuildPlan.Template.Basic
import BuildPlan.Template.Segment

/-!
# Reading templates

`Template.read?` makes a template of a text. Every loop and alternative has to be closed by the tag that belongs
to it.
-/

namespace BuildPlan.Template

/-! ### Expressions -/

/-- The constants that have a name. -/
def constant? (name : String) : Option Json :=
  if name = "true" || name = "True" then some (.bool true)
  else if name = "false" || name = "False" then some (.bool false)
  else if name = "none" || name = "None" then some .null
  else none

/-- Names that a loop cannot give to its items. -/
def isReserved (name : String) : Bool :=
  ["and", "or", "not", "in", "is", "if", "else"].contains name || (constant? name).isSome

/-- An expression read from tokens, with the tokens after it. -/
abbrev Taken := Option (Expr × List Token)

/-- The arguments of a call after its opening bracket, where `read` reads one. -/
def takeArguments (read : List Token → Taken) : Nat → List Token → Option (List Expr × List Token)
  | 0, _ => none
  | _, .mark ')' :: rest => some ([], rest)
  | fuel + 1, tokens => do
    let (first, rest) ← read tokens
    match rest with
    | .mark ',' :: rest =>
      let (others, rest) ← takeArguments read fuel rest
      return (first :: others, rest)
    | .mark ')' :: rest => return ([first], rest)
    | _ => none

/-- The question whether one text ends with another. -/
def suffixTest : List Expr → Expr
  | [value, suffix] => .hasSuffix value suffix
  | arguments => .miscounted arguments.length

/-- The call of a name. -/
def callOf (name : String) (arguments : List Expr) : Expr :=
  if name = "has_suffix" then suffixTest arguments else .call name

/-- Strings that stand side by side are one string. -/
def takeStrings : List Token → String × List Token
  | .string text :: rest =>
    let (others, rest) := takeStrings rest
    (text ++ others, rest)
  | rest => ("", rest)

mutual

/-- A name, a string, a call or an expression in brackets. -/
def takePrimary : Nat → List Token → Taken
  | 0, _ => none
  | _, .string text :: rest =>
    let (others, rest) := takeStrings rest
    some (.constant (.string (text ++ others)), rest)
  | fuel + 1, .name name :: .mark '(' :: rest => do
    let (arguments, rest) ← takeArguments (takeOr fuel) fuel rest
    return (callOf name arguments, rest)
  | _, .name name :: rest =>
    match constant? name with
    | some value => some (.constant value, rest)
    | none => some (.variable name, rest)
  | fuel + 1, .mark '(' :: rest => do
    match ← takeOr fuel rest with
    | (inside, .mark ')' :: rest) => return (inside, rest)
    | _ => none
  | _, _ => none

/-- Filters that are applied to a value. -/
def takeFilters : Nat → Expr → List Token → Taken
  | 0, _, _ => none
  | fuel + 1, value, .mark '|' :: .name "has_suffix" :: .mark '(' :: rest => do
    let (arguments, rest) ← takeArguments (takeOr fuel) fuel rest
    takeFilters fuel (suffixTest (value :: arguments)) rest
  | fuel + 1, value, .mark '|' :: .name "has_suffix" :: rest => takeFilters fuel (suffixTest [value]) rest
  | _, _, .mark '|' :: _ => none
  | _, value, rest => some (value, rest)

/-- A value with filters, or its negation. -/
def takeNot : Nat → List Token → Taken
  | 0, _ => none
  | fuel + 1, .name "not" :: rest => do
    let (operand, rest) ← takeNot fuel rest
    return (.not operand, rest)
  | fuel + 1, tokens => do
    let (value, rest) ← takePrimary fuel tokens
    takeFilters fuel value rest

/-- Values that all have to be true. -/
def takeAnd : Nat → List Token → Taken
  | 0, _ => none
  | fuel + 1, tokens => do
    let (first, rest) ← takeNot fuel tokens
    match rest with
    | .name "and" :: rest =>
      let (second, rest) ← takeAnd fuel rest
      return (.and first second, rest)
    | _ => return (first, rest)

/-- Values of which one has to be true. -/
def takeOr : Nat → List Token → Taken
  | 0, _ => none
  | fuel + 1, tokens => do
    let (first, rest) ← takeAnd fuel tokens
    match rest with
    | .name "or" :: rest =>
      let (second, rest) ← takeOr fuel rest
      return (.or first second, rest)
    | _ => return (first, rest)

end

/-- An expression with the tokens after it. -/
def takeExpr (tokens : List Token) : Taken := takeOr (4 * tokens.length + 4) tokens

/-- An expression that is all of the tokens. -/
def exprOf (tokens : List Token) : Option Expr := do
  match ← takeExpr tokens with
  | (e, []) => some e
  | _ => none

/-! ### Parts -/

/-- The head of a loop: its variable, its items and its filter. -/
def loopHead : List Token → Option (String × Expr × Option Expr)
  | .name variableName :: .name "in" :: rest => do
    if isReserved variableName then none
    match ← takeExpr rest with
    | (items, []) => return (variableName, items, none)
    | (items, .name "if" :: rest) => return (variableName, items, some (← exprOf rest))
    | _ => none
  | _ => none

/-- Parts up to a tag that does not start a part, with that tag and the segments after it. -/
abbrev TakenParts := Option (List Part × List Token × List Segment)

mutual

/-- The parts that come next. -/
def takeParts : Nat → List Segment → TakenParts
  | 0, _ => none
  | _, [] => some ([], [], [])
  | fuel + 1, .text text :: rest => do
    let (parts, tag, rest) ← takeParts fuel rest
    return (.text (String.ofList text) :: parts, tag, rest)
  | fuel + 1, .print tokens :: rest => do
    let value ← exprOf tokens
    let (parts, tag, rest) ← takeParts fuel rest
    return (.print value :: parts, tag, rest)
  | fuel + 1, .tag tokens :: rest =>
    match tokens with
    | .name "for" :: head => do
      let (variableName, items, filter) ← loopHead head
      let (body, tag, rest) ← takeParts fuel rest
      let (otherwise, tag, rest) ←
        if tag = [.name "else"] then takeParts fuel rest else some ([], tag, rest)
      if tag ≠ [.name "endfor"] then none
      let (parts, tag, rest) ← takeParts fuel rest
      return (.loop variableName items filter body otherwise :: parts, tag, rest)
    | .name "if" :: test => do
      let (part, rest) ← takeBranch fuel test rest
      let (parts, tag, rest) ← takeParts fuel rest
      return (part :: parts, tag, rest)
    | .name "include" :: file => do
      let file ← exprOf file
      let (parts, tag, rest) ← takeParts fuel rest
      return (.include file :: parts, tag, rest)
    | tag => if tag = [] then none else some ([], tag, rest)

/-- An alternative after its test, up to the tag that closes it. -/
def takeBranch : Nat → List Token → List Segment → Option (Part × List Segment)
  | 0, _, _ => none
  | fuel + 1, test, rest => do
    let test ← exprOf test
    let (body, tag, rest) ← takeParts fuel rest
    match tag with
    | [.name "endif"] => return (.branch test body [], rest)
    | [.name "else"] =>
      match ← takeParts fuel rest with
      | (otherwise, [.name "endif"], rest) => return (.branch test body otherwise, rest)
      | _ => none
    | .name "elif" :: other =>
      let (otherwise, rest) ← takeBranch fuel other rest
      return (.branch test body [otherwise], rest)
    | _ => none

end

/-- The template that a text stands for. -/
def read? (text : String) : Option Template := do
  let segments ← segments text
  match ← takeParts (2 * segments.length + 2) segments with
  | (parts, [], []) => some parts
  | _ => none

end BuildPlan.Template
