import BuildPlan.Generate
import BuildPlan.Proofs.Flag.Memory

/-!
# The stages of a run

A run that succeeds opens its registry, loads the targets of the source tree, locks the flags, selects targets, and
builds if its mode asks for it. The lemmas here say what each stage does when it succeeds.
-/

namespace BuildPlan

variable {α : Type} {files : BuildFiles} {input : Input} {output : Output} {s t : LoadState}

theorem LoadState.onSettings_eq (operation : SettingsM α) :
    onSettings operation =
      zoom LoadState.toSettings (fun s settings => { s with toSettings := settings }) operation := by
  funext s
  unfold onSettings zoom
  cases operation s.toSettings <;> rfl

theorem LoadState.onSettings_eq_ok_iff {operation : SettingsM α} {a : α} :
    LoadState.onSettings operation s = .ok a t ↔
      ∃ settings, operation s.toSettings = .ok a settings ∧ t = { s with toSettings := settings } := by
  rw [LoadState.onSettings_eq, zoom_eq_ok_iff]

theorem LoadState.onSession_eq (p : Project) (operation : SessionM α) :
    onSession p operation =
      zoom (fun s : LoadState => { p.start s.toSettings with reports := s.reports })
        (fun s session => { s with toSettings := session.toSettings, reports := session.reports }) operation := by
  funext s
  unfold onSession zoom
  cases operation { p.start s.toSettings with reports := s.reports } <;> rfl

theorem LoadState.onSession_eq_ok_iff {p : Project} {operation : SessionM α} {a : α} :
    LoadState.onSession p operation s = .ok a t ↔
      ∃ session, operation { p.start s.toSettings with reports := s.reports } = .ok a session ∧
        t = { s with toSettings := session.toSettings, reports := session.reports } := by
  rw [LoadState.onSession_eq, zoom_eq_ok_iff]

/-- The registry of a run, before any flag is registered. -/
def firstRegistry (flags remembered : Assoc String String) : Registry := { commandLine := flags, remembered }

theorem openRegistry_eq_ok_iff :
    openRegistry input s = .ok () t ↔
      ∃ remembered, loadFlags s.store input.workspace.flagsFile = .ok remembered ∧
        t = { s with registry := firstRegistry input.flags remembered } := by
  rw [openRegistry, bind_eq_ok_iff]
  constructor
  · rintro ⟨remembered, u, hload, h⟩
    obtain ⟨settings, hsettings, rfl⟩ := LoadState.onSettings_eq_ok_iff.mp hload
    obtain ⟨store, hresult, rfl⟩ := Settings.onStore_eq_ok_iff.mp hsettings
    obtain ⟨hremembered, rfl⟩ := Prod.mk.inj hresult
    cases h
    exact ⟨remembered, hremembered, rfl⟩
  · rintro ⟨remembered, hremembered, rfl⟩
    refine ⟨remembered, s, LoadState.onSettings_eq_ok_iff.mpr ⟨s.toSettings, ?_, rfl⟩, rfl⟩
    exact Settings.onStore_eq_ok_iff.mpr ⟨s.store, by rw [hremembered], rfl⟩

/-- What a run puts out without building anything. -/
def listing (locked : LockedFlags) (targets : Assoc String TargetInfo) : Output :=
  { flags := locked.info, targets, selected := selectedNames targets }

/-- What a run puts out that builds a graph. -/
def buildOutput (locked : LockedFlags) (targets : Assoc String TargetInfo) (graph : Graph) : Output :=
  { listing locked targets with ninjaFile := Ninja.fileText graph, compdbRules := graph.compdbRules }

/-- How a run goes on from locked flags. -/
inductive Finishes (input : Input) (locked : LockedFlags) (s : LoadState) : Output → LoadState → Prop
  | lists {targets : Assoc String TargetInfo} (hmode : input.mode.generates = false)
      (htargets : selectTargets s.targetEntities input = .ok targets) :
      Finishes input locked s (listing locked targets) s
  | builds {targets : Assoc String TargetInfo} {graph : Graph} {session : Session} (hmode : input.mode.generates = true)
      (htargets : selectTargets s.targetEntities input = .ok targets)
      (hgraph : finalGraph (s.project input locked.hash)
        { (s.project input locked.hash).start s.toSettings with reports := s.reports } = .ok graph session) :
      Finishes input locked s (buildOutput locked targets graph)
        { s with toSettings := session.toSettings, reports := session.reports }

theorem generate_eq_ok_iff :
    generate input s = .ok output t ↔
      ∃ locked u, LoadState.onSettings
          (Settings.lock (if input.persist then some input.workspace.flagsFile else none)) s = .ok locked u ∧
        Finishes input locked u output t := by
  rw [generate, bind_eq_ok_iff]
  refine exists_congr fun locked => exists_congr fun u => and_congr_right fun _ => ?_
  constructor
  · intro h
    obtain ⟨_, _, hget, hselect⟩ := bind_eq_ok_iff.mp h
    cases hget
    cases htargets : selectTargets u.targetEntities input with
    | error cause =>
      rw [htargets] at hselect
      cases hselect
    | ok targets =>
      rw [htargets] at hselect
      obtain ⟨_, _, hpure, hfinish⟩ := bind_eq_ok_iff.mp hselect
      cases hpure
      by_cases hmode : input.mode.generates = true
      · simp only [if_pos hmode] at hfinish
        obtain ⟨_, _, hstate, hbuild⟩ := bind_eq_ok_iff.mp hfinish
        cases hstate
        obtain ⟨graph, x, hsession, hdone⟩ := bind_eq_ok_iff.mp hbuild
        obtain ⟨session, hgraph, rfl⟩ := LoadState.onSession_eq_ok_iff.mp hsession
        cases hdone
        exact .builds hmode htargets hgraph
      · simp only [if_neg hmode] at hfinish
        cases hfinish
        exact .lists (Bool.eq_false_iff.mpr hmode) htargets
  · intro h
    refine bind_eq_ok_iff.mpr ⟨u, u, rfl, ?_⟩
    cases h with
    | lists hmode htargets =>
      rw [htargets]
      refine bind_eq_ok_iff.mpr ⟨_, t, rfl, ?_⟩
      simp only [hmode]
      rfl
    | builds hmode htargets hgraph =>
      rw [htargets]
      refine bind_eq_ok_iff.mpr ⟨_, u, rfl, ?_⟩
      simp only [hmode, if_true]
      refine bind_eq_ok_iff.mpr ⟨u, u, rfl, bind_eq_ok_iff.mpr ⟨_, _, ?_, rfl⟩⟩
      exact LoadState.onSession_eq_ok_iff.mpr ⟨_, hgraph, rfl⟩

end BuildPlan
