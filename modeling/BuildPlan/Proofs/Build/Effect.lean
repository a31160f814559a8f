import BuildPlan.Proofs.Build.Program
import BuildPlan.Proofs.Graph.RuleTable
import BuildPlan.Proofs.State.Keeps

/-!
# What build programs leave alone

`Keeps R operation` says that `R` holds between the session before an operation and the one in which it ends,
whether or not it fails. `Steady R` and `Stable R` list the changes of a session that the operations of a build are made
of. Where all of them keep `R`, to keep it is a closed property, and every action of every build program keeps it.
-/

namespace BuildPlan

namespace Session

variable {R : Session → Session → Prop}

/-- The relation holds across every change that the build of one target makes, adding steps apart. -/
structure Steady (R : Session → Session → Prop) : Prop extends Lasting R where
  registry : ∀ s registry, R s { s with registry }
  reports : ∀ s reports, R s { s with reports }
  executables : ∀ s executables, R s { s with executables }
  built : ∀ s built, R s { s with graph := { s.graph with built } }
  dependencies : ∀ s name, R s { s with graph := { s.graph with dependencies := s.graph.dependencies ++ [name] } }
  /-- What holds inside a block with a label holds around the block. -/
  traced : ∀ s label t, R (s.push label) t → R s t.pop

/-- The relation holds across every change that the operations of a build make. -/
structure Stable (R : Session → Session → Prop) : Prop extends Steady R where
  payload : ∀ s w payload, R s { s with store := (keepPayload s.store w payload).2 }
  targetRules : ∀ s rule, isExported rule.name = true →
    R s { s with graph := { s.graph with targetRules := s.graph.targetRules ++ [rule] } }
  startTarget : ∀ s w name, R s { s with graph := s.graph.startTarget w name }
  finishTarget : ∀ s, R s { s with graph := s.graph.finishTarget }
  declare : ∀ s rule graph, s.graph.declare rule = .ok graph → R s { s with graph }
  /-- The rule of a statement has been made known before the statement is taken into the graph. -/
  accept : ∀ s statement origin graph, statement.outs ≠ [] → s.graph.declare statement.rule = .ok s.graph →
    s.graph.accept statement origin = .ok graph → R s { s with graph }

/-! ### Single operations -/

theorem keeps_attempt {operation : SessionM Unit} (h : Keeps R operation) : Keeps R (attempt operation) := by
  intro s
  have hs := h s
  unfold endState attempt at *
  rcases hop : operation s with ⟨_, t⟩ | ⟨_ | _, t⟩ <;> rw [hop] at hs <;> exact hs

theorem keeps_during {α : Type} (target : String) {operation : SessionM α} (h : Keeps R operation) :
    Keeps R (during target operation) := by
  intro s
  have hs := h s
  unfold endState during at *
  cases hop : operation s <;> rw [hop] at hs <;> exact hs

theorem keeps_onStore {operation : Store → Except Failure α × Store}
    (h : ∀ s : Session, R s { s with store := (operation s.store).2 }) : Keeps R (onStore operation) := by
  intro s
  have hs := h s
  unfold endState onStore onSettings Settings.onStore
  rcases hop : operation s.store with ⟨_ | _, store⟩ <;> rw [hop] at hs <;> exact hs

theorem Keeps.reading (hR : Lasting R) : Reading (Keeps R) where
  pure := .pure hR
  throw := .throw hR
  bind := .bind hR
  graph := hR.refl
  executables := hR.refl

theorem lasting_eq : Lasting (Eq : Session → Session → Prop) := ⟨fun _ => rfl, Eq.trans⟩

theorem reading_eq : Reading (Keeps (Eq : Session → Session → Prop)) := Keeps.reading lasting_eq

/-! ### Operations that change something -/

section steady

variable (hR : Steady R)
include hR

theorem keeps_onRegistry {α : Type} (operation : RegistryM α) : Keeps R (onRegistry operation) := by
  intro s
  unfold endState onRegistry onSettings Settings.onRegistry
  cases operation s.registry <;> exact hR.registry s _

theorem keeps_traced {α : Type} (label : String) {operation : SessionM α} (h : Keeps R operation) :
    Keeps R (Session.traced label operation) := by
  intro s
  have hs := h (s.push label)
  unfold endState at *
  unfold Session.traced
  cases hop : operation (s.push label) <;> rw [hop] at hs <;> exact hR.traced s label _ hs

theorem Keeps.building {p : Project} (haddStep : ∀ step, Keeps R (addStep p.workspace step)) :
    Building p (Keeps R) where
  toReading := Keeps.reading hR.toLasting
  check _ := keeps_onRegistry hR _
  step _ _ := keeps_onRegistry hR _
  ruleStep _ _ := keeps_onRegistry hR _
  register _ := keeps_onRegistry hR _
  flagValue _ := (keeps_onRegistry hR _).map hR.toLasting _
  addStep := haddStep
  report h := (Keeps.of_discard h).bind hR.toLasting fun _ s => hR.reports s _
  link _ _ s := hR.executables s _
  mark _ s := hR.built s _
  dependency _ _ s := hR.dependencies s _
  traced label _ h := keeps_traced hR label h
  attempt h := keeps_attempt h

end steady

section operations

variable (hR : Stable R)
include hR

theorem keeps_writePayload (w : Workspace) (payload : Option Payload) : Keeps R (writePayload w payload) := by
  cases payload with
  | none => exact .pure hR.toLasting ()
  | some payload => exact keeps_onStore fun s => hR.payload s w payload

theorem keeps_addStatement {statement : Statement} (houts : statement.outs ≠ []) (origin : RuleOrigin) :
    Keeps R (addStatement statement origin) := by
  intro s
  have hdeclare := hR.declare s statement.rule
  change R s (endState (EStateM.bind (EStateM.bind (ofExcept (s.graph.declare statement.rule)) _) _) s)
  cases hd : s.graph.declare statement.rule with
  | error cause => exact hR.refl s
  | ok graph =>
    have haccept := hR.accept { s with graph } statement origin
    refine hR.trans (hdeclare graph hd) ?_
    change R _ (endState (EStateM.bind (ofExcept (graph.accept statement origin)) _) _)
    cases ha : graph.accept statement origin with
    | error cause => exact hR.refl _
    | ok graph' => exact haccept graph' houts (Graph.declare_declare hd) ha

theorem Keeps.closed (p : Project) : Closed p (Keeps R) where
  toBuilding := Keeps.building hR.toSteady ((Keeps.reading hR.toLasting).addStep (keeps_writePayload hR p.workspace)
    fun _ houts => keeps_addStatement hR houts)
  targetRule rule hexported s := hR.targetRules s rule hexported
  startTarget w name s := hR.startTarget s w name
  finishTarget := hR.finishTarget
  during target _ h := keeps_during target h

/-- **Every action of a project whose programs are of a certain sort keeps what the single changes of a session
keep**, if that sort contains what is inside of its members. Writing a build file is no change that a build
needs, so what it keeps is asked for where it is of that sort. -/
theorem perform_keeps {p : Project} {P : Action → Prop} (hP : p.RunsOnly P)
    (hbody : ∀ a, P a → ∀ b ∈ a.body, P b)
    (hfiles : ∀ directory fileName, P (.writeBuildFile directory fileName) →
      Keeps R (writeBuildFile directory fileName))
    (depth : Nat) (package : Option Package) {a : Action} (ha : P a) : Keeps R (perform p depth package a) :=
  .of_discard ((Keeps.closed hR p).perform hP hbody hfiles depth package ha)

end operations

theorem keeps_writeBuildFile (hR : Lasting R) (hstore : ∀ (s : Session) store, R s { s with store })
    (directory fileName : String) : Keeps R (writeBuildFile directory fileName) := by
  refine (Keeps.reading hR).graph.bind hR fun s => ?_
  exact (keeps_onStore fun t => hstore t _).bind hR fun _ => .pure hR _

end Session

end BuildPlan
