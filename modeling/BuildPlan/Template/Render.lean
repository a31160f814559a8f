import BuildPlan.Error
import BuildPlan.Store.Operations
import BuildPlan.Target.Expression
import BuildPlan.Template.Reader

/-!
# Rendering templates

`Template.renderText` and `Template.renderFile` fill in a template. A variable that has no value must not be
printed, tested or gone through. Templates in files can include others of their directory.
-/

namespace BuildPlan.Template

/-- Why a template is not rendered. -/
inductive Trouble where
  /-- The template, or one that it includes, cannot be used. -/
  | unusable
  | fault (fault : Fault)
  deriving DecidableEq, Repr

/-- What a template is rendered with. -/
structure Surroundings where
  store : Store
  /-- The directory of templates; a template that is not in a file has none. -/
  directory : Option String := none

/-- The values of the variables, the innermost first. -/
abbrev Scope := List (String × Json)

/-- A result, unless there is trouble. -/
abbrev Result (α : Type) := Except Trouble α

/-- A value that has to be there. -/
def defined : Option Json → Result Json
  | some value => .ok value
  | none => .error .unusable

/-- Whether a text ends with another one. -/
def hasSuffix (text suffix : String) : Bool := suffix.toList.isSuffixOf text.toList

/-- What a message says when a suffix is not looked for in just one text. -/
def miscountText (count : Nat) : String :=
  "has_suffix() " ++
    match count with
    | 0 => "missing 2 required positional arguments: \x27value\x27 and \x27suffix\x27"
    | 1 => "missing 1 required positional argument: \x27suffix\x27"
    | n => "takes 2 positional arguments but " ++ toString n ++ " were given"

/-- The value of an expression; a variable may have none. -/
def Expr.eval (scope : Scope) : Expr → Result (Option Json)
  | .constant value => .ok (some value)
  | .variable name => .ok (scope.lookup name)
  | .miscounted count => .error (.fault (.mismatch (miscountText count)))
  | .call name =>
    match scope.lookup name with
    | none => .error .unusable
    | some value => .error (.fault (.mismatch (marked value.typeName ++ " object is not callable")))
  | .hasSuffix value suffix => do
    let value ← value.eval scope
    let suffix ← suffix.eval scope
    let text := (← defined value).text
    match suffix with
    | some (.string suffix) => return some (.bool (Template.hasSuffix text suffix))
    | other =>
      let typeName := (other.map Json.typeName).getD "StrictUndefined"
      throw (.fault (.mismatch ("endswith first arg must be str or a tuple of str, not " ++ typeName)))
  | .not operand => do return some (.bool (!(← defined (← operand.eval scope)).isTruthy))
  | .and first second => do
    let value ← defined (← first.eval scope)
    if value.isTruthy then second.eval scope else return some value
  | .or first second => do
    let value ← defined (← first.eval scope)
    if value.isTruthy then return some value else second.eval scope

/-- The value of an expression, which has to be there. -/
def Expr.value (scope : Scope) (e : Expr) : Result Json := do defined (← e.eval scope)

/-- The items of a value: those of a list, the characters of a text, the names of the fields of an object. -/
def itemsOf : Json → Result (List Json)
  | .array items => .ok items
  | .string text => .ok (text.toList.map fun c => .string (String.ofList [c]))
  | .object fields => .ok (fields.map fun (name, _) => .string name)
  | other => .error (.fault (.mismatch (marked other.typeName ++ " object is not iterable")))

/-- The item passes the filter of a loop. -/
def passes (scope : Scope) (filter : Option Expr) (variableName : String) (item : Json) : Result Bool :=
  match filter with
  | none => .ok true
  | some test => do return (← test.value ((variableName, item) :: scope)).isTruthy

/-- The components of the name of a template, which must not lead out of the directory. -/
def nameParts (name : String) : Option (List String) :=
  let parts := (Lexical.split name.toList).filter fun part => part ≠ [] ∧ part ≠ ['.']
  if parts.contains ['.', '.'] then none else some (parts.map String.ofList)

/-- The template in a file of the directory. -/
def Surroundings.load (s : Surroundings) (name : String) : Result Template :=
  match s.directory with
  | none => .error (.fault (.mismatch "no loader for this environment specified"))
  | some directory =>
    match nameParts name with
    | none => .error .unusable
    | some parts =>
      match s.store.readText (joinText directory ("/".intercalate parts)) with
      | .error _ => .error .unusable
      | .ok text =>
        match read? text with
        | some template => .ok template
        | none => .error .unusable

/-- The text of a part; `depth` bounds how deep parts nest. -/
def renderPart (s : Surroundings) : Nat → Scope → Part → Result String
  | 0, _, _ => .error (.fault .tooDeep)
  | depth + 1, scope, part => do
    let renderAll (scope : Scope) (parts : List Part) : Result String := do
      return String.join (← parts.mapM (renderPart s depth scope))
    match part with
    | .text text => return text
    | .print value => return (← value.value scope).text
    | .loop variableName items filter body otherwise =>
      let items ← (← itemsOf (← items.value scope)).filterM (passes scope filter variableName)
      if items.isEmpty then renderAll scope otherwise
      else return String.join (← items.mapM fun item => renderAll ((variableName, item) :: scope) body)
    | .branch test body otherwise =>
      if (← test.value scope).isTruthy then renderAll scope body else renderAll scope otherwise
    | .include file =>
      match ← file.value scope with
      | .string name => do renderAll scope (← s.load name)
      | _ => throw .unusable

/-- The text of a template. -/
def render (s : Surroundings) (scope : Scope) (template : Template) : Result String := do
  return String.join (← template.mapM (renderPart s nestingLimit scope))

/-- The failure of a template with a name. -/
def failureOf (name : String) : Trouble → Failure
  | .unusable => .of (.templateFailed name)
  | .fault f => .fault f

/-- A template text is filled in; the name is for messages. -/
def renderText (text name : String) (data : List (String × Json)) : Except Failure String :=
  match read? text with
  | none => .error (failureOf name .unusable)
  | some template => (render { store := {} } data template).mapError (failureOf name)

/-- The template in a file is filled in. -/
def renderFile (store : Store) (path : String) (data : List (String × Json)) : Except Failure String :=
  let path := tidyText path
  let s : Surroundings := { store, directory := some (Store.parentPath path) }
  let result := do
    let template ← s.load (lastComponent path)
    render s data template
  result.mapError (failureOf path)

end BuildPlan.Template
