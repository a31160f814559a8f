import BuildPlan.Proofs.Build.Effect
import BuildPlan.Proofs.Build.Success

/-!
# Handling one target

A target is handled in stages: its build runs in a session that `enter` has prepared, and if it is exported, its rule is
made and is added to the graph. The rule stands for what the build has left; the target is asked for the files to show
and for its commands only then.
-/

namespace BuildPlan.Session

variable {p : Project} {within : Option Package → Action → SessionM Unit} {name : String} {id : Nat} {s s' : Session}

theorem entity_bind {α : Type} {e : Entity} (he : p.entities[id]? = some e) (f : Entity → SessionM α) (s : Session) :
    (entity p id >>= f) s = f e s := by
  unfold entity
  rw [he]
  rfl

theorem entity_eq_ok {e : Entity} (h : entity p id s = .ok e s') : p.entities[id]? = some e ∧ s' = s := by
  unfold entity at h
  cases he : p.entities[id]? with
  | none =>
    rw [he] at h
    cases h
  | some found =>
    rw [he] at h
    cases h
    exact ⟨rfl, rfl⟩

theorem during_eq_ok_iff {α : Type} {target : String} {operation : SessionM α} {a : α} :
    during target operation s = .ok a s' ↔ operation s = .ok a s' := by
  unfold during
  cases operation s <;> simp

/-- The session at the beginning of a target. -/
def enter (p : Project) (name : String) (s : Session) : Session :=
  { s with graph := s.graph.startTarget p.workspace name }

/-- The session in which the thing is built that a target stands for. -/
def inTarget (p : Project) (name : String) (s : Session) : Session := (enter p name s).push ("top:" ++ name)

/-- The session at the end of a target. -/
def leave (s : Session) : Session := { s with graph := s.graph.finishTarget }

/-- The session with one more rule of a target. -/
def withRule (s : Session) (rule : TargetRule) : Session :=
  { s with graph := { s.graph with targetRules := s.graph.targetRules ++ [rule] } }

/-- What a target that has been handled leaves: what its build has left, and its rule if it is exported. -/
theorem handleTarget_eq_ok (h : handleTarget p within name id s = .ok () s') :
    ∃ reply t, buildEntity p within id (inTarget p name s) = .ok reply t ∧
      (isExported name = true → ∃ e rule u, p.entities[id]? = some e ∧ targetRule p within name id e t.pop = .ok rule u ∧
        s' = (u.withRule rule).leave) ∧
      (isExported name = false → s' = t.pop.leave) := by
  obtain ⟨_, _, hstart, h₁⟩ := bind_eq_ok_iff.mp h
  cases hstart
  obtain ⟨_, t, hduring, hfinish⟩ := bind_eq_ok_iff.mp h₁
  cases hfinish
  obtain ⟨_, u, hdiscard, hrule⟩ := bind_eq_ok_iff.mp (during_eq_ok_iff.mp hduring)
  obtain ⟨reply, htraced⟩ := discard_eq_ok_iff.mp hdiscard
  obtain ⟨t', hbuild, rfl⟩ := traced_eq_ok_iff.mp htraced
  refine ⟨reply, t', hbuild, fun hexported => ?_, fun hexported => ?_⟩
  · rw [if_pos hexported] at hrule
    obtain ⟨e, v, hentity, hrest⟩ := bind_eq_ok_iff.mp hrule
    obtain ⟨rule, w, htarget, hchange⟩ := bind_eq_ok_iff.mp hrest
    obtain ⟨he, rfl⟩ := entity_eq_ok hentity
    cases hchange
    exact ⟨e, rule, w, he, htarget, rfl⟩
  · rw [hexported, if_neg (by decide)] at hrule
    cases hrule
    rfl

theorem processTarget_eq_ok (h : processTarget p within name s = .ok () s') :
    (Assoc.find? p.targets name = none ∧ s' = s) ∨
    ∃ id e, Assoc.find? p.targets name = some id ∧ p.entities[id]? = some e ∧
      (e.isTarget = false ∧ s' = s ∨ e.isTarget = true ∧ handleTarget p within name id s = .ok () s') := by
  unfold processTarget at h
  cases hid : Assoc.find? p.targets name with
  | none =>
    rw [hid] at h
    cases h
    exact .inl ⟨rfl, rfl⟩
  | some id =>
    rw [hid] at h
    obtain ⟨e, t, hentity, hhandle⟩ := bind_eq_ok_iff.mp h
    obtain ⟨he, rfl⟩ := entity_eq_ok hentity
    refine .inr ⟨id, e, rfl, he, ?_⟩
    cases htarget : e.isTarget with
    | false =>
      rw [htarget] at hhandle
      cases hhandle
      exact .inl ⟨rfl, rfl⟩
    | true =>
      rw [htarget] at hhandle
      exact .inr ⟨rfl, hhandle⟩

/-! ### The rule of a target -/

/-- The graph stays as it is. -/
def SameGraph (s t : Session) : Prop := t.graph = s.graph

theorem SameGraph.lasting : Lasting SameGraph := ⟨fun _ => rfl, fun hst htu => Eq.trans htu hst⟩

theorem keeps_graph_onRegistry {α : Type} (operation : RegistryM α) : Keeps SameGraph (onRegistry operation) := by
  intro s
  unfold endState onRegistry onSettings Settings.onRegistry
  cases operation s.registry <;> rfl

/-- The rule of a target is made in stages: the frontier is taken down, then come the files to show, then what the target
needs by that time, then its commands. -/
theorem targetRule_eq_ok {e : Entity} {rule : TargetRule} (h : targetRule p within name id e s = .ok rule s') :
    rule.name = name ∧ rule.inputs = s.graph.sortedFrontier ∧ ∃ files t texts u,
      shownFiles p within e s.graph.sortedFrontier s = .ok files t ∧ displayAll p.workspace files t = .ok texts t ∧
      rule.dependencies = t.graph.dependencies ∧
      commandIf e.isRunnable (runCommand within id e p.runArguments) t = .ok rule.run u ∧
      commandIf e.isTestable (testCommand within id e p.testArguments) u = .ok rule.test s' := by
  obtain ⟨_, _, hget, h₁⟩ := bind_eq_ok_iff.mp h
  cases hget
  obtain ⟨files, t, hfiles, h₂⟩ := bind_eq_ok_iff.mp h₁
  obtain ⟨texts, u, htexts, h₃⟩ := bind_eq_ok_iff.mp h₂
  obtain rfl := (reading_eq.displayAll _ _).ok htexts
  obtain ⟨_, _, hget, h₄⟩ := bind_eq_ok_iff.mp h₃
  cases hget
  obtain ⟨run, v, hrun, h₅⟩ := bind_eq_ok_iff.mp h₄
  obtain ⟨test, w, htest, hpure⟩ := bind_eq_ok_iff.mp h₅
  cases hpure
  exact ⟨rfl, rfl, files, t, texts, v, hfiles, htexts, rfl, hrun, htest⟩

theorem commandIf_eq_ok {command : SessionM String} {text : Option String}
    (h : commandIf true command s = .ok text s') : ∃ line, command s = .ok line s' ∧ text = some line := by
  rw [commandIf, if_pos rfl, map_eq_pure_bind] at h
  obtain ⟨line, t, hcommand, hpure⟩ := bind_eq_ok_iff.mp h
  cases hpure
  exact ⟨line, hcommand, rfl⟩

end BuildPlan.Session
