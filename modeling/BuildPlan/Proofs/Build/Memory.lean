import BuildPlan.Proofs.Build.AddSteps
import BuildPlan.Proofs.Build.Request

/-!
# Building with and without a memory

A build asks for an object file or an archive each time that it reaches one, but the graph sees only the first
time, because the file is marked as built then. This module follows the builds of object files, libraries and
executables with `Does`: which statements they ask for, what of it comes to the graph, and which files are marked
afterwards. It covers both projects that remember marks and projects that do not.
-/

namespace BuildPlan

/-- An output of the statement is marked as built. -/
def Statement.IsMarked (s : Statement) (built : List String) : Prop := ∃ out ∈ s.outs, out.absolute ∈ built

/-- Nothing is left to do for a request: it has been added, or its output is marked, or what it makes goes into
something requested that is marked. -/
def Settled (requests : List Statement) (log : Log) (built : List String) (r : Statement) : Prop :=
  r ∈ log.statements ∨ r.IsMarked built ∨
    ∃ a ∈ requests, a.rule.compdb = false ∧ a.IsMarked built ∧ ∃ out ∈ r.outs, out ∈ a.ins

theorem Statement.IsMarked.mono {s : Statement} {built built' : List String} (h : s.IsMarked built)
    (hbuilt : built ⊆ built') : s.IsMarked built' := by
  obtain ⟨out, hout, hkey⟩ := h
  exact ⟨out, hout, hbuilt hkey⟩

theorem Settled.mono {requests requests' : List Statement} {log log' : Log} {built built' : List String}
    {r : Statement} (h : Settled requests log built r) (hrequests : requests ⊆ requests')
    (hlog : log.statements ⊆ log'.statements) (hbuilt : built ⊆ built') : Settled requests' log' built' r := by
  rcases h with h | h | ⟨a, ha, hpack, hmarked, hout⟩
  · exact .inl (hlog h)
  · exact .inr (.inl (h.mono hbuilt))
  · exact .inr (.inr ⟨a, hrequests ha, hpack, hmarked.mono hbuilt, hout⟩)

namespace Session

/-- The session with one more mark. -/
def mark (s : Session) (key : String) : Session :=
  { s with graph := { s.graph with built := s.graph.built ++ [key] } }

/-- What a build leaves that asks for some statements, where the log is what of them has come to the graph. -/
structure Did (requests : List Statement) (s s' : Session) (log : Log) : Prop where
  records : ∀ before, s.graph.Records before → s'.graph.Records (before ++ log)
  taken : log.statements ⊆ requests
  /-- Marks stay. -/
  kept : s.graph.built ⊆ s'.graph.built
  /-- Files that are newly marked are made, and not by links. -/
  backed : ∀ mark ∈ s'.graph.built, mark ∈ s.graph.built ∨ Makes log.statements mark
  /-- What is packed or linked is marked. -/
  inputs : ∀ r ∈ log.statements, r.rule.compdb = false → ∀ i ∈ r.uses, i.absolute ∈ s'.graph.built
  archived : ∀ r ∈ requests, r.IsArchive → r.IsMarked s'.graph.built
  settled : ∀ r ∈ requests, Settled requests log s'.graph.built r

namespace Did

variable {requests requests' : List Statement} {s t u s' : Session} {log log' : Log}

theorem nothing (hedges : s'.graph.edges = s.graph.edges) (houtputs : s'.graph.outputs = s.graph.outputs)
    (hrules : s'.graph.rules = s.graph.rules) (hbuilt : s'.graph.built = s.graph.built) : Did [] s s' [] where
  records before h := by simpa using h.of_eq hedges houtputs hrules
  taken := by simp [Log.statements]
  kept := by simp [hbuilt]
  backed _ hmark := .inl (hbuilt ▸ hmark)
  inputs := by simp [Log.statements]
  archived := by simp
  settled := by simp

theorem trans (h : Did requests s t log) (h' : Did requests' t u log') :
    Did (requests ++ requests') s u (log ++ log') where
  records before hb := by simpa using h'.records _ (h.records before hb)
  taken r hr := by
    rw [Log.statements_append, List.mem_append] at hr
    exact List.mem_append.mpr (hr.imp (h.taken ·) (h'.taken ·))
  kept := List.Subset.trans h.kept h'.kept
  backed mark hmark := by
    have hmono : ∀ {log₁ log₂ : Log}, log₁.statements ⊆ log₂.statements → Makes log₁.statements mark →
        Makes log₂.statements mark := fun hsub ⟨r, hr, hout⟩ => ⟨r, hsub hr, hout⟩
    rcases h'.backed mark hmark with hmark | hmakes
    · exact (h.backed mark hmark).imp id (hmono (by simp))
    · exact .inr (hmono (by simp) hmakes)
  inputs r hr hpack i hi := by
    rw [Log.statements_append, List.mem_append] at hr
    rcases hr with hr | hr
    · exact h'.kept (h.inputs r hr hpack i hi)
    · exact h'.inputs r hr hpack i hi
  archived r hr harchive := by
    rcases List.mem_append.mp hr with hr | hr
    · exact (h.archived r hr harchive).mono h'.kept
    · exact h'.archived r hr harchive
  settled r hr := by
    rcases List.mem_append.mp hr with hr | hr
    · exact (h.settled r hr).mono (by simp) (by simp) h'.kept
    · exact (h'.settled r hr).mono (by simp) (by simp) (List.Subset.refl _)

theorem of_mark {key : String} (h : Did requests (s.mark key) s' log) (hkey : Makes log.statements key) :
    Did requests s s' log where
  records before hb := h.records before (hb.of_eq rfl rfl rfl)
  taken := h.taken
  kept := List.Subset.trans (List.subset_append_left _ _) h.kept
  backed mark hmark := by
    rcases h.backed mark hmark with hmark | hmakes
    · rcases List.mem_append.mp hmark with hmark | hmark
      · exact .inl hmark
      · exact .inr (List.mem_singleton.mp hmark ▸ hkey)
    · exact .inr hmakes
  inputs := h.inputs
  archived := h.archived
  settled := h.settled

theorem skipped (h : ∀ r ∈ requests, Settled requests [] s.graph.built r)
    (harchived : ∀ r ∈ requests, r.IsArchive → r.IsMarked s.graph.built) : Did requests s s [] where
  records before hb := by simpa using hb
  taken := by simp [Log.statements]
  kept := List.Subset.refl _
  backed _ hmark := .inl hmark
  inputs := by simp [Log.statements]
  archived := harchived
  settled := h

end Did

theorem succeeds_addStep_ruled_iff {s : Session} {log : Log} (h : s.graph.Records log) (w : Workspace) {step : RuleStep}
    (houts : (AnyStep.ruled step).outs ≠ []) :
    Succeeds (addStep w (.ruled step)) s ↔ Consistent (log.statements ++ [step.statement]) := by
  rw [← h.add_iff step.statement step.origin]
  constructor
  · rintro ⟨_, s', hadd⟩
    obtain ⟨-, -, g₁, g', hdeclare, haccept, -⟩ := (addStep_eq_ok_iff houts).mp hadd
    exact ⟨g₁, g', hdeclare, haccept⟩
  · rintro ⟨g₁, g', hdeclare, haccept⟩
    exact ⟨(), _, (addStep_eq_ok_iff houts).mpr ⟨id, trivial, g₁, g', hdeclare, haccept, rfl⟩⟩

/-- What adding a step with a rule of its own leaves, if what it packs or links is marked and so is the archive that it
makes. -/
theorem did_addStep {s s' : Session} {w : Workspace} {step : RuleStep}
    (houts : (AnyStep.ruled step).outs ≠ [])
    (hinputs : step.rule.compdb = false → ∀ i ∈ step.statement.uses, i.absolute ∈ s.graph.built)
    (harchive : step.statement.IsArchive → step.statement.IsMarked s.graph.built)
    (hadd : addStep w (.ruled step) s = .ok () s') :
    Did [step.statement] s s' [(step.statement, s.graph.traceLabel)] ∧ s'.graph.directory = s.graph.directory ∧
      s'.graph.asked = s.graph.asked ++ [step.statement] ∧ s'.graph.built = s.graph.built := by
  obtain ⟨-, -, g₁, g', hdeclare, haccept, rfl⟩ := (addStep_eq_ok_iff houts).mp hadd
  have hrecords : ∀ before, s.graph.Records before →
      g'.Records (before ++ [(step.statement, s.graph.traceLabel)]) := fun before hb =>
    hb.add houts hdeclare haccept
  obtain ⟨rules, rfl⟩ := Graph.declare_eq hdeclare
  obtain ⟨hdirectory, hasked, hbuilt⟩ : g'.directory = s.graph.directory ∧
      g'.asked = s.graph.asked ++ [step.statement] ∧ g'.built = s.graph.built := by
    rcases Graph.accept_cases haccept with ⟨_, _, -, -, -, rfl⟩ | ⟨-, rfl⟩ <;> exact ⟨rfl, rfl, rfl⟩
  refine ⟨⟨hrecords, List.Subset.refl _, ?_, ?_, ?_, ?_, ?_⟩, hdirectory, hasked, hbuilt⟩
  · simp [hbuilt]
  · exact fun _ hmark => .inl (hbuilt ▸ hmark)
  · intro r hr
    rw [List.mem_singleton.mp hr]
    exact hbuilt.symm ▸ hinputs
  · intro r hr
    rw [List.mem_singleton.mp hr]
    exact hbuilt.symm ▸ harchive
  · intro r hr
    exact .inl hr

theorem isBuilt_eq (p : Project) (name : String) (s : Session) :
    isBuilt p name s =
      if p.remembers = true ∧ name ∈ s.graph.built then .ok true s else .ok false (s.mark name) := by
  change (if (p.remembers && decide (name ∈ s.graph.built)) = true then _ else _ : SessionM Bool) s = _
  by_cases h : p.remembers = true ∧ name ∈ s.graph.built
  · rw [if_pos h, if_pos (by simpa using h)]
    rfl
  · rw [if_neg h, if_neg (by simpa using h)]
    rfl

theorem unlessBuilt_eq (p : Project) (out : OutPath) (build : SessionM Unit) (s : Session) :
    unlessBuilt p out build s =
      if p.remembers = true ∧ out.absolute ∈ s.graph.built then .ok out s
      else (do build; return out : SessionM OutPath) (s.mark out.absolute) := by
  change EStateM.bind (isBuilt p out.absolute) _ s = _
  unfold EStateM.bind
  rw [isBuilt_eq]
  by_cases h : p.remembers = true ∧ out.absolute ∈ s.graph.built
  · simp only [if_pos h]
    rfl
  · simp only [if_neg h]
    rfl

/-! ### Builds -/

/-- The session is in a target with this directory, and these files are marked as built. -/
structure At (directory : OutPath) (marks : List String) (s : Session) : Prop where
  directory : s.graph.directory = directory
  marked : ∀ mark ∈ marks, mark ∈ s.graph.built

/-- Some statements have been asked for inside of a target, and some files are marked now. Without a memory all that
was asked for has come to the graph. -/
structure Built (p : Project) (directory : OutPath) (requests : List Statement) (marks : List String)
    (s s' : Session) (log : Log) : Prop where
  did : Did requests s s' log
  site : At directory marks s'
  asked : s'.graph.asked = s.graph.asked ++ log.statements
  all : p.remembers = false → log.statements = requests

/-- The operation asks for some statements, with some files marked before it and some after it, and gives a known
answer. Without a memory it succeeds if what it asks for is consistent with what there is. -/
structure Does {α : Type} (p : Project) (directory : OutPath) (before : List String) (requests : List Statement)
    (after : List String) (a : α) (operation : SessionM α) : Prop where
  built : ∀ s b s', At directory before s → operation s = .ok b s' →
    b = a ∧ ∃ log, Built p directory requests after s s' log
  succeeds : p.remembers = false → ∀ s log, At directory before s → s.graph.Records log →
    Consistent (log.statements ++ requests) → Succeeds operation s

namespace Built

variable {p : Project} {directory : OutPath} {requests : List Statement} {marks : List String} {s t s' : Session}
  {log : Log}

theorem block {label : String} (h : Built p directory requests marks (s.push label) t log) :
    Built p directory requests marks s t.pop log := by
  have hpush : Did [] s (s.push label) [] := .nothing rfl rfl rfl rfl
  have hpop : Did [] t t.pop [] := .nothing rfl rfl rfl rfl
  refine ⟨?_, ⟨h.site.directory, h.site.marked⟩, h.asked, h.all⟩
  simpa using hpush.trans (h.did.trans hpop)

theorem addStep {step : RuleStep} (h : Built p directory requests marks s t log) (houts : step.outs ≠ [])
    (hinputs : step.rule.compdb = false → ∀ i ∈ step.statement.uses, i.absolute ∈ marks)
    (harchive : step.statement.IsArchive → step.statement.IsMarked t.graph.built)
    (hadd : addStep p.workspace (.ruled step) t = .ok () s') :
    Built p directory (requests ++ [step.statement]) marks s s' (log ++ [(step.statement, t.graph.traceLabel)]) := by
  obtain ⟨hdid, hdirectory, hasked, hbuilt⟩ :=
    did_addStep houts (fun hpack i hi => h.site.marked _ (hinputs hpack i hi)) harchive hadd
  refine ⟨h.did.trans hdid, ⟨hdirectory.trans h.site.directory, hbuilt ▸ h.site.marked⟩, ?_, fun hp => ?_⟩
  · rw [hasked, h.asked, Log.statements_append, List.append_assoc, Log.statements_singleton]
  · rw [Log.statements_append, h.all hp, Log.statements_singleton]

theorem of_graph_eq (h : Built p directory requests marks s t log) (hgraph : s'.graph = t.graph) :
    Built p directory requests marks s s' log := by
  obtain ⟨⟨hrecords, htaken, hkept, hbacked, hinputs, harchived, hsettled⟩, ⟨hdirectory, hmarked⟩, hasked, hall⟩ := h
  rw [← hgraph] at hrecords hkept hbacked hinputs harchived hsettled hdirectory hmarked hasked
  exact ⟨⟨hrecords, htaken, hkept, hbacked, hinputs, harchived, hsettled⟩, ⟨hdirectory, hmarked⟩, hasked, hall⟩

end Built

namespace Does

variable {α β : Type} {p : Project} {directory : OutPath} {before before' after after' : List String}
  {requests requests' : List Statement} {a : α} {b : β} {x : SessionM α}

theorem pure (a : α) : Does p directory before [] [] a (pure a : SessionM α) where
  built s b s' hs h := by
    cases h
    exact ⟨rfl, [], .nothing rfl rfl rfl rfl, ⟨hs.directory, by simp⟩, by simp [Log.statements], fun _ => rfl⟩
  succeeds _ s _ _ _ _ := ⟨a, s, rfl⟩

theorem weaken (h : Does p directory before requests after a x) (hsub : before ⊆ before') :
    Does p directory before' requests after a x where
  built s b s' hs := h.built s b s' ⟨hs.directory, fun mark hmark => hs.marked mark (hsub hmark)⟩
  succeeds hp s log hs := h.succeeds hp s log ⟨hs.directory, fun mark hmark => hs.marked mark (hsub hmark)⟩

theorem bind {f : α → SessionM β} (hx : Does p directory before requests after a x)
    (hf : Does p directory (before ++ after) requests' after' b (f a)) :
    Does p directory before (requests ++ requests') (after ++ after') b (x >>= f) where
  built s b' s' hs h := by
    obtain ⟨c, t, hxs, hft⟩ := bind_eq_ok_iff.mp h
    obtain ⟨rfl, log, hlog⟩ := hx.built s c t hs hxs
    have ht : At directory (before ++ after) t :=
      ⟨hlog.site.directory, List.forall_mem_append.mpr
        ⟨fun mark hmark => hlog.did.kept (hs.marked mark hmark), hlog.site.marked⟩⟩
    obtain ⟨rfl, log', hlog'⟩ := hf.built t b' s' ht hft
    refine ⟨rfl, log ++ log', hlog.did.trans hlog'.did, ⟨hlog'.site.directory, ?_⟩, ?_, fun hp => ?_⟩
    · exact List.forall_mem_append.mpr
        ⟨fun mark hmark => hlog'.did.kept (hlog.site.marked mark hmark), hlog'.site.marked⟩
    · rw [hlog'.asked, hlog.asked, Log.statements_append, List.append_assoc]
    · rw [Log.statements_append, hlog.all hp, hlog'.all hp]
  succeeds hp s log hs hrecords hcons := by
    have hprefix : Consistent (log.statements ++ requests) := hcons.subset (by simp)
    obtain ⟨c, t, hxs⟩ := hx.succeeds hp s log hs hrecords hprefix
    obtain ⟨rfl, log', hlog⟩ := hx.built s c t hs hxs
    have ht : At directory (before ++ after) t :=
      ⟨hlog.site.directory, List.forall_mem_append.mpr
        ⟨fun mark hmark => hlog.did.kept (hs.marked mark hmark), hlog.site.marked⟩⟩
    have hrest : Consistent ((log ++ log').statements ++ requests') := by
      rw [Log.statements_append, hlog.all hp, List.append_assoc]
      exact hcons
    obtain ⟨d, s', hft⟩ := hf.succeeds hp t (log ++ log') ht (hlog.did.records log hrecords) hrest
    exact .bind hxs ⟨d, s', hft⟩

theorem mapM {ι : Type} {f : ι → SessionM α} {requests : ι → List Statement} {after : ι → List String} {answer : ι → α}
    (xs : List ι) (h : ∀ i ∈ xs, Does p directory before (requests i) (after i) (answer i) (f i)) :
    Does p directory before (xs.flatMap requests) (xs.flatMap after) (xs.map answer) (xs.mapM f) := by
  induction xs with
  | nil => exact .pure []
  | cons i rest ih =>
    obtain ⟨hi, hrest⟩ := List.forall_mem_cons.mp h
    have htail : Does p directory (before ++ after i) (rest.flatMap requests ++ []) (rest.flatMap after ++ [])
        (answer i :: rest.map answer) (do return answer i :: (← rest.mapM f)) :=
      ((ih hrest).weaken (List.subset_append_left _ _)).bind (.pure _)
    rw [List.append_nil, List.append_nil] at htail
    rw [List.mapM_cons]
    exact hi.bind htail

theorem congr {y : SessionM α} (h : Does p directory before requests after a x)
    (heq : ∀ s, s.graph.directory = directory → y s = x s) : Does p directory before requests after a y where
  built s b s' hs hy := h.built s b s' hs (heq s hs.directory ▸ hy)
  succeeds hp s log hs hrecords hcons := by
    obtain ⟨b, s', hx⟩ := h.succeeds hp s log hs hrecords hcons
    exact ⟨b, s', (heq s hs.directory).trans hx⟩

theorem traced (label : String) (h : Does p directory before requests after a x) :
    Does p directory before requests after a (traced label x) where
  built s b s' hs hx := by
    obtain ⟨t, hop, rfl⟩ := traced_eq_ok_iff.mp hx
    obtain ⟨rfl, log, hlog⟩ := h.built (s.push label) b t ⟨hs.directory, hs.marked⟩ hop
    exact ⟨rfl, log, hlog.block⟩
  succeeds hp s log hs hrecords hcons := by
    obtain ⟨b, t, hop⟩ := h.succeeds hp (s.push label) log ⟨hs.directory, hs.marked⟩ (hrecords.of_eq rfl rfl rfl) hcons
    exact ⟨b, t.pop, traced_eq_ok_iff.mpr ⟨t, hop, rfl⟩⟩

theorem addStep {step : RuleStep} (houts : step.outs ≠ [])
    (hinputs : step.rule.compdb = false → ∀ i ∈ step.statement.uses, i.absolute ∈ before)
    (harchive : step.statement.IsArchive → step.statement.IsMarked before) :
    Does p directory before [step.statement] [] () (addStep p.workspace (.ruled step)) where
  built s b s' hs hadd := by
    obtain ⟨hdid, hdirectory, hasked, hbuilt⟩ :=
      did_addStep houts (fun hpack i hi => hs.marked _ (hinputs hpack i hi))
        (fun h => (harchive h).mono hs.marked) hadd
    exact ⟨rfl, _, hdid, ⟨hdirectory.trans hs.directory, by simp⟩, hasked, fun _ => rfl⟩
  succeeds _ s log hs hrecords hcons := (succeeds_addStep_ruled_iff hrecords p.workspace houts).mpr hcons

/-- What is not built again asks for the same as when it is built for the first time. -/
theorem unlessBuilt (hx : Does p directory [] requests after a x) (step : α → RuleStep) (label : String)
    (out : OutPath) (houts : (step a).outs = [.out out])
    (hlink : ¬(step a).statement.IsLink)
    (hinputs : (step a).rule.compdb = false → ∀ i ∈ (step a).statement.uses, i.absolute ∈ after)
    (hpack : ∀ r ∈ requests, (step a).rule.compdb = false ∧ ¬r.IsArchive ∧ ∃ o ∈ r.outs, o ∈ (step a).ins) :
    Does p directory [] (requests ++ [(step a).statement]) [out.absolute] out
      (unlessBuilt p out (Session.traced label (x >>= fun b => Session.addStep p.workspace (.ruled (step b))))) where
  built s b s' hs h := by
    have hne : (step a).outs ≠ [] := by simp [houts]
    rw [unlessBuilt_eq] at h
    split at h
    case isTrue hmarked =>
      cases h
      have hout : (step a).statement.IsMarked s.graph.built :=
        ⟨.out out, by simp [RuleStep.statement, houts], hmarked.2⟩
      refine ⟨rfl, [], .skipped (fun r hr => ?_) (fun r hr harchive => ?_), ⟨hs.directory, by simpa using hmarked.2⟩,
        by simp [Log.statements], fun hp => by simp [hp] at hmarked⟩
      · rcases List.mem_append.mp hr with hr | hr
        · obtain ⟨hrule, -, hinput⟩ := hpack r hr
          exact .inr (.inr ⟨_, List.mem_append_right _ List.mem_cons_self, hrule, hout, hinput⟩)
        · exact .inr (.inl (List.mem_singleton.mp hr ▸ hout))
      · rcases List.mem_append.mp hr with hr | hr
        · exact absurd harchive (hpack r hr).2.1
        · exact List.mem_singleton.mp hr ▸ hout
    case isFalse =>
      obtain ⟨_, u, hbuild, hpure⟩ := bind_eq_ok_iff.mp h
      cases hpure
      obtain ⟨t, hop, rfl⟩ := traced_eq_ok_iff.mp hbuild
      obtain ⟨c, t', hxs, hadd⟩ := bind_eq_ok_iff.mp hop
      have hstart : At directory [] ((s.mark out.absolute).push label) := ⟨hs.directory, by simp⟩
      obtain ⟨rfl, log, hlog⟩ := hx.built _ c t' hstart hxs
      have hout : out.absolute ∈ t'.graph.built := hlog.did.kept (List.mem_append_right _ List.mem_cons_self)
      have hbuilt := (hlog.addStep hne hinputs
        (fun _ => ⟨.out out, by simp [RuleStep.statement, houts], hout⟩) hadd).block
      have hmakes : Makes (log ++ [((step c).statement, t'.graph.traceLabel)]).statements out.absolute :=
        ⟨(step c).statement, by simp, hlink, .out out, by simp [RuleStep.statement, houts], rfl⟩
      have hmarked : out.absolute ∈ t.pop.graph.built := hbuilt.did.kept (by simp [mark])
      exact ⟨rfl, _, hbuilt.did.of_mark hmakes, ⟨hbuilt.site.directory, by simpa using hmarked⟩, hbuilt.asked,
        hbuilt.all⟩
  succeeds hp s log hs hrecords hcons := by
    have hne : (step a).outs ≠ [] := by simp [houts]
    have hadd : Does p directory ([out.absolute] ++ after) [(step a).statement] [] ()
        (Session.addStep p.workspace (.ruled (step a))) :=
      .addStep hne (fun hpack i hi => List.mem_append_right _ (hinputs hpack i hi))
        (fun _ => ⟨.out out, by simp [RuleStep.statement, houts], List.mem_append_left _ List.mem_cons_self⟩)
    have hbuild := (hx.weaken (List.nil_subset [out.absolute])).bind
      (f := fun b => Session.addStep p.workspace (.ruled (step b))) hadd
    obtain ⟨_, t, ht⟩ := (hbuild.traced label).succeeds hp (s.mark out.absolute) log
      ⟨hs.directory, by simp [mark]⟩ (hrecords.of_eq rfl rfl rfl) hcons
    refine ⟨out, t, ?_⟩
    rw [unlessBuilt_eq, if_neg (by simp [hp])]
    exact bind_eq_ok_iff.mpr ⟨(), t, ht, rfl⟩

end Does

/-! ### Object files, libraries and executables -/

section entities

variable (p : Project) (directory : OutPath)

theorem does_buildObjectFile (o : ObjectFile) :
    Does p directory [] [o.request p.workspace] [(o.out p.workspace).absolute] (o.out p.workspace)
      (buildObjectFile p o) := by
  have hrule : (o.step p.workspace).rule.compdb = true := rfl
  exact (Does.pure ()).unlessBuilt (fun _ => o.step p.workspace) _ (o.out p.workspace) rfl
    (o.not_isLink_request p.workspace) (fun h => absurd (hrule.symm.trans h) (by decide)) (by simp)

theorem does_objectFiles (objects : List ObjectFile) :
    Does p directory [] (objects.map (·.request p.workspace)) (objects.map fun o => (o.out p.workspace).absolute)
      (objects.map (·.out p.workspace)) (objects.mapM (buildObjectFile p)) := by
  have := Does.mapM objects fun o _ => does_buildObjectFile p directory o
  rwa [← List.map_eq_flatMap, ← List.map_eq_flatMap] at this

theorem buildLibrary_eq (id : Nat) (l : Library) {s : Session} (hs : s.graph.directory = directory) :
    buildLibrary p id l s =
      unlessBuilt p (l.out p.workspace directory) (traced ("lib:" ++ (l.out p.workspace directory).rel) do
        let objects ← (p.libraryObjects id l).mapM (buildObjectFile p)
        addStep p.workspace (.ruled (l.step (l.out p.workspace directory) objects))) s := by
  rw [← hs]
  rfl

theorem does_buildLibrary (id : Nat) (l : Library) :
    Does p directory [] (p.libraryRequests directory id l) [(l.out p.workspace directory).absolute]
      (l.out p.workspace directory) (buildLibrary p id l) := by
  have hbuild := (does_objectFiles p directory (p.libraryObjects id l)).unlessBuilt
    (fun objects => l.step (l.out p.workspace directory) objects) ("lib:" ++ (l.out p.workspace directory).rel)
    (l.out p.workspace directory) rfl (p.not_isLink_archiveRequest directory id l) ?_ ?_
  · exact hbuild.congr fun _ => buildLibrary_eq p directory id l
  · intro _ i hi
    obtain ⟨o, ho, rfl⟩ := List.mem_map.mp (p.uses_archiveRequest directory id l ▸ hi)
    exact List.mem_map_of_mem ho
  · intro r hr
    obtain ⟨o, ho, rfl⟩ := List.mem_map.mp hr
    exact ⟨rfl, o.not_isArchive_request p.workspace, .out (o.out p.workspace), List.mem_cons_self,
      List.mem_map_of_mem (List.mem_map_of_mem ho)⟩

theorem does_libraries (deps : List (Nat × Library)) :
    Does p directory [] (deps.flatMap fun dep => p.libraryRequests directory dep.1 dep.2)
      (deps.map fun dep => (dep.2.out p.workspace directory).absolute)
      (deps.map fun dep => dep.2.out p.workspace directory) (deps.mapM fun (id, l) => buildLibrary p id l) := by
  have := Does.mapM deps fun dep _ => does_buildLibrary p directory dep.1 dep.2
  rwa [← List.map_eq_flatMap] at this

theorem does_inputs (x : Executable) :
    Does p directory [] (p.inputRequests directory x)
      ((p.executableObjects x).map (fun o => (o.out p.workspace).absolute) ++
        (p.entities.libraryClosure x.deps).map fun dep => (dep.2.out p.workspace directory).absolute)
      ((p.executableObjects x).map (·.out p.workspace),
        (p.entities.libraryClosure x.deps).map fun dep => dep.2.out p.workspace directory)
      (do
        let objects ← (p.executableObjects x).mapM (buildObjectFile p)
        let archives ← (p.entities.libraryClosure x.deps).mapM fun (id, l) => buildLibrary p id l
        return (objects, archives)) := by
  have hlibraries := (does_libraries p directory (p.entities.libraryClosure x.deps)).weaken (List.nil_subset
    ([] ++ (p.executableObjects x).map fun o => (o.out p.workspace).absolute))
  have htail := hlibraries.bind
    (f := fun archives => (pure ((p.executableObjects x).map (·.out p.workspace), archives)))
    (.pure _)
  rw [List.append_nil, List.append_nil] at htail
  exact (does_objectFiles p directory (p.executableObjects x)).bind htail

theorem linkExecutable_eq (id : Nat) (x : Executable) (objects archives : List OutPath) {s : Session}
    (hs : s.graph.directory = directory) :
    linkExecutable p id x objects archives s =
      (do
        addStep p.workspace (.ruled (x.step (x.out p.workspace directory) objects archives))
        modify fun s => { s with
          executables := Assoc.insert s.executables id (.out (x.out p.workspace directory)) } :
        SessionM Unit) s := by
  rw [← hs]
  rfl

theorem buildExecutable_eq (id : Nat) (x : Executable) :
    buildExecutable p id x = (do
      let (objects, archives) ← (do
        let objects ← (p.executableObjects x).mapM (buildObjectFile p)
        let archives ← (p.entities.libraryClosure x.deps).mapM fun (id, l) => buildLibrary p id l
        return (objects, archives))
      linkExecutable p id x objects archives) := by
  simp only [bind_assoc, pure_bind]
  rfl

/-- The link of an executable always comes to the graph, and the executable is known afterwards. -/
theorem built_buildExecutable {id : Nat} {x : Executable} {s s' : Session} (hs : At directory [] s)
    (h : buildExecutable p id x s = .ok () s') :
    ∃ marks log label, Built p directory (p.executableRequests directory x) marks s s'
        (log ++ [(p.linkRequest directory x, label)]) ∧
      p.linkRequest directory x ∈ s'.graph.statements ∧
      Assoc.find? s'.executables id = some (.out (x.out p.workspace directory)) := by
  rw [buildExecutable_eq] at h
  obtain ⟨inputs, t, hinputs, hlink⟩ := bind_eq_ok_iff.mp h
  obtain ⟨rfl, log, hlog⟩ := (does_inputs p directory x).built s inputs t hs hinputs
  obtain ⟨_, u, hadd, hmodify⟩ :=
    bind_eq_ok_iff.mp ((linkExecutable_eq p directory id x _ _ hlog.site.directory).symm.trans hlink)
  cases hmodify
  have hbuilt := hlog.addStep (by simp [Executable.step]) ?_
    (fun h => absurd h (p.not_isArchive_linkRequest directory x)) hadd
  · refine ⟨_, log, t.graph.traceLabel, hbuilt.of_graph_eq rfl, ?_, ?_⟩
    · exact signature_mem_of_addStep (by simp [AnyStep.outs, Executable.step]) hadd
    · exact (Assoc.find?_insert _ _ _ _).trans (if_pos rfl)
  · intro _ i hi
    have huses : i ∈ (p.linkRequest directory x).uses := hi
    rw [p.uses_linkRequest directory x] at huses
    rcases List.mem_append.mp huses with hi | hi
    · obtain ⟨o, ho, rfl⟩ := List.mem_map.mp hi
      exact List.mem_append_left _ (List.mem_map_of_mem ho)
    · obtain ⟨dep, hdep, rfl⟩ := List.mem_map.mp hi
      exact List.mem_append_right _ (List.mem_map_of_mem hdep)

theorem succeeds_buildExecutable (hp : p.remembers = false) (id : Nat) {x : Executable} {s : Session} {log : Log}
    (hs : At directory [] s) (hrecords : s.graph.Records log)
    (hcons : Consistent (log.statements ++ p.executableRequests directory x)) :
    Succeeds (buildExecutable p id x) s := by
  have hprefix : Consistent (log.statements ++ p.inputRequests directory x) :=
    hcons.subset (by simp [Project.executableRequests])
  obtain ⟨inputs, t, hinputs⟩ := (does_inputs p directory x).succeeds hp s log hs hrecords hprefix
  obtain ⟨rfl, log', hlog⟩ := (does_inputs p directory x).built s inputs t hs hinputs
  have hlink : Consistent ((log ++ log').statements ++ [p.linkRequest directory x]) := by
    rw [Log.statements_append, hlog.all hp, List.append_assoc]
    exact hcons
  obtain ⟨_, u, hadd⟩ := (succeeds_addStep_ruled_iff (hlog.did.records log hrecords) p.workspace
    (by simp [AnyStep.outs, Executable.step])).mpr hlink
  rw [buildExecutable_eq]
  refine .bind hinputs ?_
  have hsucceeds := Succeeds.bind hadd (f := fun _ => modify fun s => { s with
    executables := Assoc.insert s.executables id (.out (x.out p.workspace directory)) }) ⟨(), _, rfl⟩
  rwa [Succeeds, ← linkExecutable_eq p directory id x _ _ hlog.site.directory] at hsucceeds

end entities

end Session

end BuildPlan
