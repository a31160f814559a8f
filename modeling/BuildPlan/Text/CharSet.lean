/-!
# Sets of characters

`CharSet` is a set of characters given by the code points at which membership changes, in ascending order: the
first belongs to the set, the second is the first that no longer does, and so on. The tables of character
properties are written in this form.
-/

namespace BuildPlan.Text

/-- A set of characters, as the ascending code points at which membership changes. -/
structure CharSet where
  changes : List Nat

/-- A character is in the set when an odd number of changes lie at or before it. -/
def CharSet.contains (s : CharSet) (c : Char) : Bool :=
  (s.changes.takeWhile (· ≤ c.toNat)).length % 2 == 1

@[simp] theorem CharSet.contains_nil (c : Char) : (CharSet.mk []).contains c = false := rfl

end BuildPlan.Text
