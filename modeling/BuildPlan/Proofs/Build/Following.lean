import BuildPlan.Proofs.Build.Events

/-!
# Executions that are followed

A record of what an execution comes to is made up along the execution: from what is recorded where steps are added,
through everything that operations are put together from. `Follows` says what it takes to make up such a record, and
`Follows.perform` that every action of a build program has one then, in whatever session it starts.
-/

namespace BuildPlan

namespace Session

/-- The relation holds across every change that the operations of a build make, adding steps apart. -/
structure Quiet (R : Session → Session → Prop) : Prop extends Steady R where
  targetRules : ∀ s rule, R s { s with graph := { s.graph with targetRules := s.graph.targetRules ++ [rule] } }
  startTarget : ∀ s w name, R s { s with graph := s.graph.startTarget w name }
  finishTarget : ∀ s, R s { s with graph := s.graph.finishTarget }
  store : ∀ (s : Session) store, R s { s with store }

/-- There is a record of an operation that starts in a session, wherever there are records of its parts. What keeps the
relation needs none. -/
structure Follows (p : Project) (R : Session → Session → Prop) (F : ∀ {α : Type}, SessionM α → Session → Prop) :
    Prop where
  aside : ∀ {α : Type} {x : SessionM α}, Keeps R x → ∀ s, F x s
  addStep : ∀ {step : AnyStep}, step.outs ≠ [] → ∀ s, F (addStep p.workspace step) s
  bind : ∀ {α β : Type} {x : SessionM α} {f : α → SessionM β} {s t : Session} {a : α},
    F x s → x s = .ok a t → F (f a) t → F (x >>= f) s
  stopped : ∀ {α β : Type} {x : SessionM α} {f : α → SessionM β} {s t : Session} {e : Failure},
    F x s → x s = .error e t → F (x >>= f) s
  report : ∀ {x : SessionM Reply} {s : Session}, F (discard x) s → F (x >>= report) s
  traced : ∀ {α : Type} {x : SessionM α} {s : Session} {label : String}, F x (s.push label) → F (traced label x) s
  attempt : ∀ {x : SessionM Unit} {s : Session}, F x s → F (attempt x) s
  during : ∀ {α : Type} {x : SessionM α} {s : Session} {target : String}, F x s → F (during target x) s

namespace Follows

variable {p : Project} {R : Session → Session → Prop} {F : ∀ {α : Type}, SessionM α → Session → Prop}

/-- To have a record in every session is a closed property: all operations but the adding of steps keep the relation. -/
theorem closed (hF : Follows p R F) (hR : Quiet R) : Closed p fun x => ∀ s, F x s := by
  have hread : Reading (Keeps R) := Keeps.reading hR.toLasting
  exact {
    pure := fun a => hF.aside (hread.pure a)
    throw := fun e => hF.aside (hread.throw e)
    bind := fun {α β x f} hx hf s => by
      cases h : x s with
      | ok a t => exact hF.bind (hx s) h (hf a t)
      | error e t => exact hF.stopped (hx s) h
    graph := hF.aside hread.graph
    executables := hF.aside hread.executables
    check := fun x => hF.aside (keeps_onRegistry hR.toSteady _)
    step := fun site step => hF.aside (keeps_onRegistry hR.toSteady _)
    ruleStep := fun site step => hF.aside (keeps_onRegistry hR.toSteady _)
    register := fun source => hF.aside (keeps_onRegistry hR.toSteady _)
    flagValue := fun name => hF.aside (hread.discard (keeps_onRegistry hR.toSteady _))
    addStep := fun step => by
      by_cases houts : step.outs = []
      · refine hF.aside fun s => ?_
        rw [endState_of_ok (addStep_of_outs_eq_nil houts s)]
        exact hR.refl s
      · exact hF.addStep houts
    report := fun hx s => hF.report (hx s)
    link := fun id path => hF.aside fun _ => hR.executables _ _
    mark := fun name => hF.aside fun _ => hR.built _ _
    dependency := fun _ _ => hF.aside fun _ => hR.dependencies _ _
    traced := fun label x hx s => hF.traced (hx (s.push label))
    attempt := fun hx s => hF.attempt (hx s)
    targetRule := fun rule _ => hF.aside fun _ => hR.targetRules _ _
    startTarget := fun w name => hF.aside fun _ => hR.startTarget _ _ _
    finishTarget := hF.aside fun _ => hR.finishTarget _
    during := fun target x hx s => hF.during (hx s) }

/-- **Every action of a build program has a record**, in whatever session it starts. -/
theorem perform (hF : Follows p R F) (hR : Quiet R) (depth : Nat) (package : Option Package) (action : Action)
    (s : Session) : F (discard (Session.perform p depth package action)) s :=
  (hF.closed hR).perform (P := fun _ => True) (fun _ _ _ _ => trivial) (fun _ _ _ _ => trivial)
    (fun directory fileName _ => hF.aside (keeps_writeBuildFile hR.toLasting hR.store directory fileName))
    depth package trivial s

end Follows

/-! ### How the parts of an execution end -/

theorem endState_during {α : Type} (target : String) (operation : SessionM α) (s : Session) :
    endState (during target operation) s = endState operation s := by
  unfold endState during
  cases operation s <;> rfl

theorem graph_endState_report (x : SessionM Reply) (s : Session) :
    (endState (x >>= report) s).graph = (endState x s).graph := by
  cases hop : x s with
  | ok reply t =>
    rw [endState_bind_of_ok hop, endState_of_ok hop]
    rfl
  | error e t => rw [endState_bind_of_error hop, endState_of_error hop]

end Session

end BuildPlan
