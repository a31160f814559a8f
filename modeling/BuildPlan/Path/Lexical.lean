/-!
# Slash-separated names

Operations on the text of a path, which never look at a file system: `join`, the parts before and after the last
slash, the stem of the last component, and the components that a path has when it is taken below `/`. Texts are
lists of characters here.
-/

namespace BuildPlan.Lexical

/-- The second path below the first; a second path that starts with a slash stands alone. -/
def join (a b : List Char) : List Char :=
  if b.head? = some '/' then b
  else if a = [] ∨ a.getLast? = some '/' then a ++ b
  else a ++ '/' :: b

/-- The part up to the last slash, with it. -/
def dirPart (p : List Char) : List Char := (p.reverse.dropWhile (· ≠ '/')).reverse

/-- The part after the last slash: the last component. -/
def basename (p : List Char) : List Char := (p.reverse.takeWhile (· ≠ '/')).reverse

/-- The text without slashes at its end. -/
def trimSlashes (p : List Char) : List Char := (p.reverse.dropWhile (· = '/')).reverse

/-- The part before the last slash, without slashes at its end unless it has nothing else. -/
def dirname (p : List Char) : List Char :=
  let head := dirPart p
  if head.all (· = '/') then head else trimSlashes head

/-- A component without its extension: what precedes the last dot, where dots in front do not count. -/
def nameStem (name : List Char) : List Char :=
  let dots := name.takeWhile (· = '.')
  let rest := name.dropWhile (· = '.')
  if rest.contains '.' then dots ++ ((rest.reverse.dropWhile (· ≠ '.')).drop 1).reverse else name

/-- A path without the extension of its last component. -/
def stem (p : List Char) : List Char := dirPart p ++ nameStem (basename p)

/-- The parts between the slashes, empty ones among them. -/
def split : List Char → List (List Char)
  | [] => [[]]
  | '/' :: rest => [] :: split rest
  | c :: rest =>
    match split rest with
    | [] => [[c]]
    | part :: parts => (c :: part) :: parts

/-- One more part on a stack of components, last first: empty parts and `.` add nothing and `..` takes one
away. -/
def push (stack : List (List Char)) (part : List Char) : List (List Char) :=
  if part = [] ∨ part = ['.'] then stack
  else if part = ['.', '.'] then stack.drop 1
  else part :: stack

/-- The components of a path below `/`, where a relative path is taken. -/
def components (p : List Char) : List (List Char) := ((split p).foldl push []).reverse

/-- Components that lead from the first list of components to the second. -/
def relativeComponents : List (List Char) → List (List Char) → List (List Char)
  | a :: start, b :: target =>
    if a = b then relativeComponents start target
    else List.replicate (start.length + 1) ['.', '.'] ++ b :: target
  | start, target => start.map (fun _ => ['.', '.']) ++ target

/-- The path that leads from one path to another; both are taken below `/`. -/
def relative (start target : List Char) : List Char :=
  match relativeComponents (components start) (components target) with
  | [] => ['.']
  | parts => ['/'].intercalate parts

/-- A path as file names are shown: one slash between components, no `.` among them, none at the end. Exactly
two slashes in front are kept. -/
def tidy (p : List Char) : List Char :=
  let root :=
    match p with
    | '/' :: '/' :: '/' :: _ => ['/']
    | '/' :: '/' :: _ => ['/', '/']
    | '/' :: _ => ['/']
    | _ => []
  let parts := (split p).filter fun part => part ≠ [] ∧ part ≠ ['.']
  if root = [] ∧ parts = [] then ['.'] else root ++ ['/'].intercalate parts

end BuildPlan.Lexical
