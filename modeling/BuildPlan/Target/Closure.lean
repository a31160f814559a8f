/-!
# Order of libraries

A static linker needs each library before those that it depends on. `closure` lists the libraries that some
roots reach: it visits them depth first and puts a library in front of everything that was finished before, so
each comes once, and before its dependencies unless they form a cycle. `Reaches` says what it has to list.
-/

namespace BuildPlan

variable {ι : Type} [DecidableEq ι]

/-- A library is reached from another one by dependencies. -/
inductive Reaches (deps : ι → List ι) : ι → ι → Prop where
  | refl (a : ι) : Reaches deps a a
  | step {a b c : ι} : b ∈ deps a → Reaches deps b c → Reaches deps a c

/-- What a visit has found so far. -/
structure Visit (ι : Type) where
  /-- The libraries that have been met. -/
  seen : List ι := []
  /-- The libraries that are finished, last first. -/
  order : List ι := []

/-- A library and all that it reaches are visited; `fuel` bounds the length of a chain of dependencies. -/
def visit (deps : ι → List ι) : Nat → Visit ι → ι → Visit ι
  | 0, v, _ => v
  | fuel + 1, v, a =>
    if a ∈ v.seen then v
    else
      let v := (deps a).foldl (visit deps fuel) { v with seen := a :: v.seen }
      { v with order := a :: v.order }

/-- The libraries that the roots reach, each before its dependencies. There are at most `size` libraries. -/
def closure (deps : ι → List ι) (size : Nat) (roots : List ι) : List ι :=
  (roots.foldl (visit deps (size + 1)) {}).order

end BuildPlan
