import BuildPlan.Proofs.Graph.OutputTable

/-!
# The rule table of a graph

A graph knows the rules that have a name. `declare_cases` says all that making a rule known can do, and
`declare_eq_ok_iff` when it is refused. `KnowsRules` says that the table has the rules of all edges.
-/

namespace BuildPlan.Graph

variable {g g' : Graph} {rule : Rule}

theorem declare_cases (h : g.declare rule = .ok g') :
    rule.name = "" ∧ g' = g ∨
    isReservedRuleName rule.name = false ∧ Assoc.find? g.rules rule.name = some rule ∧ g' = g ∨
    rule.name ≠ "" ∧ isReservedRuleName rule.name = false ∧ Assoc.find? g.rules rule.name = none ∧
      g' = { g with rules := Assoc.insert g.rules rule.name rule } := by
  unfold declare at h
  split at h
  case isTrue hname =>
    cases h
    exact .inl ⟨hname, rfl⟩
  case isFalse hname =>
    split at h
    case isTrue => cases h
    case isFalse hreserved =>
      have hfree := Bool.eq_false_iff.mpr hreserved
      split at h
      case h_1 hnone =>
        cases h
        exact .inr (.inr ⟨hname, hfree, hnone, rfl⟩)
      case h_2 known hknown =>
        split at h
        case isTrue heq =>
          cases h
          exact .inr (.inl ⟨hfree, heq ▸ hknown, rfl⟩)
        case isFalse => cases h

theorem declare_eq (h : g.declare rule = .ok g') : ∃ rules, g' = { g with rules } := by
  rcases declare_cases h with ⟨-, rfl⟩ | ⟨-, -, rfl⟩ | ⟨-, -, -, rfl⟩
  · exact ⟨g'.rules, rfl⟩
  · exact ⟨g'.rules, rfl⟩
  · exact ⟨_, rfl⟩

/-- A rule can be made known exactly if it has no name, or has one that is not reserved and that no other rule
has. -/
theorem declare_eq_ok_iff :
    (∃ g', g.declare rule = .ok g') ↔
      rule.name = "" ∨ isReservedRuleName rule.name = false ∧
        ∀ known, Assoc.find? g.rules rule.name = some known → known = rule := by
  constructor
  · rintro ⟨g', h⟩
    rcases declare_cases h with ⟨hname, -⟩ | ⟨hfree, hknown, -⟩ | ⟨-, hfree, hnone, -⟩
    · exact .inl hname
    · exact .inr ⟨hfree, fun known h => by simpa [hknown] using h.symm⟩
    · exact .inr ⟨hfree, fun known h => by simp [hnone] at h⟩
  · rintro (hname | ⟨hfree, hknown⟩)
    · exact ⟨g, if_pos hname⟩
    · unfold declare
      by_cases hname : rule.name = ""
      · exact ⟨g, if_pos hname⟩
      · rw [if_neg hname, hfree]
        cases hfind : Assoc.find? g.rules rule.name with
        | none => exact ⟨_, rfl⟩
        | some known => exact ⟨g, if_pos (hknown known hfind)⟩

theorem declare_declare (h : g.declare rule = .ok g') : g'.declare rule = .ok g' := by
  unfold declare
  rcases declare_cases h with ⟨hname, -⟩ | ⟨hfree, hknown, rfl⟩ | ⟨-, hfree, -, rfl⟩
  · exact if_pos hname
  · rw [hfree, hknown]
    simp
  · rw [hfree, Assoc.find?_insert]
    simp

theorem find?_declare (h : g.declare rule = .ok g') (hname : rule.name ≠ "") :
    Assoc.find? g'.rules rule.name = some rule := by
  rcases declare_cases h with ⟨hnone, -⟩ | ⟨-, hknown, rfl⟩ | ⟨-, -, -, rfl⟩
  · exact absurd hnone hname
  · exact hknown
  · rw [Assoc.find?_insert, if_pos rfl]

/-- The table has the named rules of all edges, and no name that is not for users. -/
structure KnowsRules (g : Graph) : Prop where
  edges : ∀ e ∈ g.edges, e.rule.name ≠ "" → Assoc.find? g.rules e.rule.name = some e.rule
  names : ∀ name ∈ Assoc.keys g.rules, name ≠ "" ∧ isReservedRuleName name = false

namespace KnowsRules

theorem empty (w : Workspace) : (Graph.empty w).KnowsRules := ⟨nofun, nofun⟩

theorem of_eq (h : g.KnowsRules) (hedges : g'.edges = g.edges) (hrules : g'.rules = g.rules) : g'.KnowsRules := by
  constructor
  · rw [hedges, hrules]
    exact h.edges
  · rw [hrules]
    exact h.names

theorem declare (h : g.KnowsRules) (hdeclare : g.declare rule = .ok g') : g'.KnowsRules := by
  rcases declare_cases hdeclare with ⟨-, rfl⟩ | ⟨-, -, rfl⟩ | ⟨hname, hfree, hnone, rfl⟩
  · exact h
  · exact h
  · constructor
    · intro e he hnamed
      have hknown := h.edges e he hnamed
      have hne : e.rule.name ≠ rule.name := by
        intro heq
        rw [heq, hnone] at hknown
        cases hknown
      rw [Assoc.find?_insert, if_neg hne]
      exact hknown
    · intro name hmem
      rw [Assoc.keys_insert] at hmem
      split at hmem
      · exact h.names name hmem
      · rcases List.mem_append.mp hmem with hmem | hmem
        · exact h.names name hmem
        · rw [List.mem_singleton.mp hmem]
          exact ⟨hname, hfree⟩

theorem accept (h : g.KnowsRules) {s : Statement} {origin : RuleOrigin} (hknown : g.declare s.rule = .ok g)
    (haccept : g.accept s origin = .ok g') : g'.KnowsRules := by
  rcases accept_cases haccept with ⟨place, _, -, -, -, rfl⟩ | ⟨-, rfl⟩
  · refine ⟨fun e he hnamed => ?_, h.names⟩
    obtain ⟨i, hi⟩ := List.mem_iff_getElem?.mp he
    have hfound : ((g.edges[i]?).map fun e => if place = i then e.addTrace g.traceLabel else e) = some e :=
      (getElem?_retrace place i).symm.trans hi
    obtain ⟨e', he', rfl⟩ := Option.map_eq_some_iff.mp hfound
    have hrule : (if place = i then e'.addTrace g.traceLabel else e').rule = e'.rule := by split <;> rfl
    rw [hrule] at hnamed ⊢
    exact h.edges e' (List.mem_of_getElem? he') hnamed
  · refine ⟨fun e he hnamed => ?_, h.names⟩
    rcases List.mem_append.mp he with he | he
    · exact h.edges e he hnamed
    · rw [List.mem_singleton.mp he] at hnamed ⊢
      have hrule : Assoc.find? g.rules s.rule.name = some s.rule := find?_declare hknown hnamed
      exact hrule

end KnowsRules

end BuildPlan.Graph
