import BuildPlan.Build.Session
import BuildPlan.Proofs.Graph.OutputTable
import BuildPlan.Proofs.Graph.RuleTable
import BuildPlan.Proofs.State.Result

/-!
# Operations that succeed

When an operation on a session succeeds, and what it leaves then, for the operations that everything else is made of:
sequences, changes of the graph, blocks with a label, and above all `addStep`.
-/

namespace BuildPlan

/-! ### Steps and their statements -/

/-- The step asks for things that exclude each other: a command next to a payload, or data that do not go to a single
output. -/
def Step.Malformed (s : Step) : Prop :=
  s.command ≠ "" ∧ (s.script ≠ "" ∨ s.data ≠ "") ∨ s.script = "" ∧ s.data ≠ "" ∧ (s.out = none ∨ s.outs ≠ [])

namespace AnyStep

/-- Steps with a rule of their own are never malformed. -/
def Malformed : AnyStep → Prop
  | .plain s => s.Malformed
  | .ruled _ => False

/-- The payload of a step; a malformed one has none. -/
def payload (s : AnyStep) : Option Payload := s.payload?.toOption.join

/-- The statement of a step. -/
def signature (s : AnyStep) (w : Workspace) : Statement := s.statement w s.payload

end AnyStep

theorem Step.payload?_eq_ok_iff (s : Step) : (∃ payload, s.payload? = .ok payload) ↔ ¬s.Malformed := by
  unfold payload? Malformed
  by_cases hscript : s.script = ""
  · by_cases hdata : s.data = ""
    · simp [hscript, hdata]
    · by_cases hcommand : s.command = ""
      · cases hout : s.out <;> cases houts : s.outs <;> simp [hscript, hdata, hcommand]
      · simp [hscript, hdata, hcommand]
  · by_cases hcommand : s.command = "" <;> simp [hscript, hcommand]

theorem AnyStep.payload?_eq_ok_iff (s : AnyStep) : s.payload? = .ok s.payload ↔ ¬s.Malformed := by
  cases s with
  | plain s =>
    rw [Malformed, ← s.payload?_eq_ok_iff]
    constructor
    · exact fun h => ⟨_, h⟩
    · rintro ⟨payload, h⟩
      simp [AnyStep.payload, AnyStep.payload?, h, Except.toOption]
  | ruled s => simp [Malformed, payload?, payload, Except.toOption]

/-! ### Operations -/

/-- An operation succeeds. -/
def Succeeds {α : Type} (operation : SessionM α) (s : Session) : Prop := ∃ a s', operation s = .ok a s'

instance {α : Type} (operation : SessionM α) (s : Session) : Decidable (Succeeds operation s) :=
  match h : operation s with
  | .ok a s' => isTrue ⟨a, s', h⟩
  | .error _ _ => isFalse fun ⟨_, _, h'⟩ => nomatch h.symm.trans h'

theorem Succeeds.bind {α β : Type} {x : SessionM α} {f : α → SessionM β} {s t : Session} {a : α} (hx : x s = .ok a t)
    (hf : Succeeds (f a) t) : Succeeds (x >>= f) s := by
  obtain ⟨b, s', hb⟩ := hf
  exact ⟨b, s', bind_eq_ok_iff.mpr ⟨a, t, hx, hb⟩⟩

namespace Session

variable {s s' : Session} {w : Workspace}

/-- The payload file of a step, if it has one, can be written. -/
def CanWritePayload (w : Workspace) (store : Store) : Option Payload → Prop
  | some payload => (keepPayload store w payload).1.isOk
  | none => True

/-- The store after the payload file of a step has been written. -/
def storeAfter (w : Workspace) (store : Store) : Option Payload → Store
  | some payload => (keepPayload store w payload).2
  | none => store

theorem writePayload_eq_ok_iff {payload : Option Payload} :
    writePayload w payload s = .ok () s' ↔
      CanWritePayload w s.store payload ∧ s' = { s with store := storeAfter w s.store payload } := by
  cases payload with
  | none =>
    change EStateM.Result.ok () s = _ ↔ True ∧ s' = s
    rw [true_and, EStateM.Result.ok.injEq, eq_comm (a := s)]
    simp
  | some payload =>
    unfold writePayload onStore onSettings Settings.onStore CanWritePayload storeAfter
    rcases hk : keepPayload s.store w payload with ⟨_ | _, store⟩
    · simp [hk, Except.isOk, Except.toBool]
    · simp [hk, Except.isOk, Except.toBool, eq_comm]

theorem onGraph_eq_ok_iff {change : Graph → Except Cause Graph} :
    onGraph change s = .ok () s' ↔ ∃ graph, change s.graph = .ok graph ∧ s' = { s with graph } := by
  change EStateM.bind (ofExcept (change s.graph)) _ s = _ ↔ _
  cases hc : change s.graph with
  | error cause =>
    constructor
    · exact fun h => nomatch h
    · rintro ⟨_, h, -⟩
      cases h
  | ok graph =>
    constructor
    · intro h
      cases h
      exact ⟨graph, rfl, rfl⟩
    · rintro ⟨_, h, rfl⟩
      cases h
      rfl

theorem onGraph_eq_error_iff {change : Graph → Except Cause Graph} {e : Failure} :
    onGraph change s = .error e s' ↔ ∃ cause, change s.graph = .error cause ∧ e = .of cause ∧ s' = s := by
  change EStateM.bind (ofExcept (change s.graph)) _ s = _ ↔ _
  cases change s.graph with
  | ok graph => exact ⟨nofun, nofun⟩
  | error cause =>
    constructor
    · intro h
      cases h
      exact ⟨cause, rfl, rfl, rfl⟩
    · rintro ⟨_, h, rfl, rfl⟩
      cases h
      rfl

theorem addStatement_eq_ok_iff {statement : Statement} {origin : RuleOrigin} :
    addStatement statement origin s = .ok () s' ↔
      ∃ g₁ g', s.graph.declare statement.rule = .ok g₁ ∧ g₁.accept statement origin = .ok g' ∧
        s' = { s with graph := g' } := by
  rw [addStatement, bind_eq_ok_iff]
  constructor
  · rintro ⟨_, t, hfirst, hsecond⟩
    obtain ⟨g₁, hdeclare, rfl⟩ := onGraph_eq_ok_iff.mp hfirst
    obtain ⟨g', haccept, rfl⟩ := onGraph_eq_ok_iff.mp hsecond
    exact ⟨g₁, g', hdeclare, haccept, rfl⟩
  · rintro ⟨g₁, g', hdeclare, haccept, rfl⟩
    exact ⟨(), _, onGraph_eq_ok_iff.mpr ⟨g₁, hdeclare, rfl⟩, onGraph_eq_ok_iff.mpr ⟨g', haccept, rfl⟩⟩

theorem addStep_of_outs_eq_nil {step : AnyStep} (houts : step.outs = []) (s : Session) :
    addStep w step s = .ok () s := by
  unfold addStep
  rw [if_pos houts]
  rfl

/-- A step with outputs is added exactly if it is not malformed, its payload file can be written, and the graph takes
its statement. -/
theorem addStep_eq_ok_iff {step : AnyStep} (houts : step.outs ≠ []) :
    addStep w step s = .ok () s' ↔ ¬step.Malformed ∧ CanWritePayload w s.store step.payload ∧
      ∃ g₁ g', s.graph.declare (step.signature w).rule = .ok g₁ ∧
        g₁.accept (step.signature w) step.origin = .ok g' ∧
        s' = { s with store := storeAfter w s.store step.payload, graph := g' } := by
  unfold addStep
  rw [if_neg houts, ← step.payload?_eq_ok_iff]
  cases hpayload : step.payload? with
  | error cause =>
    constructor
    · exact fun h => nomatch h
    · exact fun h => nomatch h.1
  | ok payload =>
    have hsome : step.payload = payload := by rw [AnyStep.payload, hpayload]; cases payload <;> rfl
    rw [hsome, AnyStep.signature, hsome]
    change (writePayload w payload >>= fun _ => addStatement (step.statement w payload) step.origin) s = _ ↔ _
    rw [bind_eq_ok_iff]
    constructor
    · rintro ⟨_, t, hwrite, hadd⟩
      obtain ⟨hcan, rfl⟩ := writePayload_eq_ok_iff.mp hwrite
      obtain ⟨g₁, g', hdeclare, haccept, rfl⟩ := addStatement_eq_ok_iff.mp hadd
      exact ⟨rfl, hcan, g₁, g', hdeclare, haccept, rfl⟩
    · rintro ⟨-, hcan, g₁, g', hdeclare, haccept, rfl⟩
      exact ⟨(), _, writePayload_eq_ok_iff.mpr ⟨hcan, rfl⟩,
        addStatement_eq_ok_iff.mpr ⟨g₁, g', hdeclare, haccept, rfl⟩⟩

theorem traced_eq_ok_iff {α : Type} {label : String} {operation : SessionM α} {a : α} :
    traced label operation s = .ok a s' ↔ ∃ t, operation (s.push label) = .ok a t ∧ s' = t.pop := by
  unfold traced
  cases operation (s.push label) with
  | ok b t =>
    constructor
    · intro h
      cases h
      exact ⟨t, rfl, rfl⟩
    · rintro ⟨_, h, rfl⟩
      cases h
      rfl
  | error e t =>
    constructor
    · exact fun h => nomatch h
    · rintro ⟨_, h, -⟩
      cases h

end Session

end BuildPlan
