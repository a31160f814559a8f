import BuildPlan.Proofs.Build.Effect
import BuildPlan.Proofs.Graph.OutputTable

/-!
# Sequences of operations

An `Operation` is anything that can be done to a session from outside: an action of a program, or the beginning or
the end of a block with a label or of a target, so that the states inside of blocks and of targets are
states between operations too. Operations can fail; `Operation.apply` gives the session that they leave. The main result
is that however a session came about, the output table and the edges of its graph agree, and nothing that the graph has
is ever lost.
-/

namespace BuildPlan

/-- What can be done to a session. -/
inductive Operation where
  | perform (depth : Nat) (package : Option Package) (action : Action)
  | enterBlock (label : String)
  | leaveBlock
  | enterTarget (name : String)
  | leaveTarget

namespace Operation

/-- The session that an operation leaves, whether or not it fails. -/
def apply (p : Project) (s : Session) : Operation → Session
  | .perform depth package action => endState (Session.perform p depth package action) s
  | .enterBlock label => s.push label
  | .leaveBlock => s.pop
  | .enterTarget name => { s with graph := s.graph.startTarget p.workspace name }
  | .leaveTarget => { s with graph := s.graph.finishTarget }

/-- The session after some operations, one after another. -/
def applyAll (p : Project) (s : Session) (operations : List Operation) : Session := operations.foldl (apply p) s

section stable

variable {R : Session → Session → Prop} (hR : Session.Stable R) (hpush : ∀ s label, R s (Session.push s label))
  (hpop : ∀ s, R s (Session.pop s)) (hstore : ∀ (s : Session) store, R s { s with store })
include hR hpush hpop hstore

theorem keeps_apply (p : Project) (s : Session) (operation : Operation) : R s (operation.apply p s) := by
  cases operation with
  | perform depth package action =>
    have hfiles := Session.keeps_writeBuildFile hR.toLasting hstore
    exact Session.perform_keeps hR (P := fun _ => True) (fun _ _ _ _ => trivial) (fun _ _ _ _ => trivial)
      (fun directory fileName _ => hfiles directory fileName) depth package trivial s
  | enterBlock label => exact hpush s label
  | leaveBlock => exact hpop s
  | enterTarget name => exact hR.startTarget s p.workspace name
  | leaveTarget => exact hR.finishTarget s

theorem keeps_applyAll (p : Project) (s : Session) (operations : List Operation) : R s (applyAll p s operations) := by
  induction operations generalizing s with
  | nil => exact hR.refl s
  | cons operation rest ih => exact hR.trans (keeps_apply hR hpush hpop hstore p s operation) (ih _)

end stable

end Operation

namespace Session

/-- The graph stays well-formed and loses nothing. -/
def Extends (s t : Session) : Prop := s.graph.WellFormed → t.graph.WellFormed ∧ s.graph.Grows t.graph

namespace Extends

theorem of_eq {s t : Session} (hedges : t.graph.edges = s.graph.edges)
    (houtputs : t.graph.outputs = s.graph.outputs) : s.Extends t := fun h =>
  ⟨h.of_eq hedges houtputs, .of_eq hedges houtputs⟩

theorem declare {s : Session} {rule : Rule} {graph : Graph} (h : s.graph.declare rule = .ok graph) :
    s.Extends { s with graph } := by
  rcases Graph.declare_cases h with ⟨-, rfl⟩ | ⟨-, -, rfl⟩ | ⟨-, -, -, rfl⟩ <;> exact of_eq rfl rfl

theorem stable : Stable Extends where
  refl s h := ⟨h, .refl _⟩
  trans hst htu h := ⟨(htu (hst h).1).1, (hst h).2.trans (htu (hst h).1).2⟩
  registry _ _ := of_eq rfl rfl
  payload _ _ _ := of_eq rfl rfl
  reports _ _ := of_eq rfl rfl
  executables _ _ := of_eq rfl rfl
  built _ _ := of_eq rfl rfl
  dependencies _ _ := of_eq rfl rfl
  targetRules _ _ _ := of_eq rfl rfl
  startTarget _ _ _ := of_eq rfl rfl
  finishTarget _ := of_eq rfl rfl
  declare _ _ _ h := declare h
  accept _ _ _ _ houts _ haccept h := Graph.accept_wellFormed h houts haccept
  traced s label t hst := by
    have hpush : s.Extends (s.push label) := of_eq rfl rfl
    have hpop : t.Extends t.pop := of_eq rfl rfl
    intro h
    obtain ⟨hpushed, hgrows⟩ := hpush h
    obtain ⟨ht, hgrows'⟩ := hst hpushed
    exact ⟨(hpop ht).1, hgrows.trans (hgrows'.trans (hpop ht).2)⟩

end Extends

/-- One operation, whether or not it fails, keeps the graph well-formed and loses nothing. -/
theorem extends_apply (p : Project) (s : Session) (operation : Operation) : s.Extends (operation.apply p s) :=
  Operation.keeps_apply Extends.stable (fun _ _ => .of_eq rfl rfl) (fun _ => .of_eq rfl rfl)
    (fun _ _ => .of_eq rfl rfl) p s operation

theorem extends_applyAll (p : Project) (s : Session) (operations : List Operation) :
    s.Extends (Operation.applyAll p s operations) :=
  Operation.keeps_applyAll Extends.stable (fun _ _ => .of_eq rfl rfl) (fun _ => .of_eq rfl rfl)
    (fun _ _ => .of_eq rfl rfl) p s operations

end Session

/-- **The output table agrees with the edges in every session that operations lead to**: each edge makes something,
the table leads from each output of an edge to that edge and from nothing else, and no two edges share an output.
Every further operation keeps every edge with what it says, every entry of the table, and every trace. -/
theorem operations_outputTable (p : Project) (settings : Settings) (operations : List Operation) :
    let s := Operation.applyAll p (p.start settings) operations
    s.graph.WellFormed ∧
    (∀ (i j : Nat) (a b : Edge), s.graph.edges[i]? = some a → s.graph.edges[j]? = some b →
      (∃ out ∈ a.outs, ∃ out' ∈ b.outs, out.absolute = out'.absolute) → i = j) ∧
    ∀ operation : Operation, s.graph.Grows (operation.apply p s).graph := by
  intro s
  have hs : s.graph.WellFormed :=
    (Session.extends_applyAll p (p.start settings) operations (Graph.WellFormed.empty _)).1
  refine ⟨hs, ?_, fun operation => (Session.extends_apply p s operation hs).2⟩
  rintro i j a b ha hb ⟨out, hout, out', hout', heq⟩
  exact hs.place_unique ha hb hout hout' heq

end BuildPlan
