import BuildPlan.Proofs.Build.AddSteps
import BuildPlan.Proofs.Shell.RoundTrip
import BuildPlan.Proofs.Store.Payloads

/-!
# What payload files hold

A payload file is named for the checksum of its contents, and is written again whenever it has other contents. So at
the end of a run it holds the last of the payloads that share its name: `addSteps_payloads`. Two texts may have one
checksum, and then the command of the first step comes to the text of the second one: `payload_can_be_replaced`.
-/

namespace BuildPlan

namespace Payload

/-- The last payload with a file name. -/
def lastNamed? (payloads : List Payload) (name : String) : Option Payload :=
  payloads.reverse.find? (·.fileName = name)

theorem lastNamed?_cons (first : Payload) (rest : List Payload) (name : String) :
    lastNamed? (first :: rest) name =
      (lastNamed? rest name).or (if first.fileName = name then some first else none) := by
  rw [lastNamed?, lastNamed?, List.reverse_cons, List.find?_append, List.find?_singleton]
  simp only [decide_eq_true_eq]

theorem lastNamed?_eq_none_iff {payloads : List Payload} {name : String} :
    lastNamed? payloads name = none ↔ ∀ payload ∈ payloads, payload.fileName ≠ name := by
  simp [lastNamed?]

theorem lastNamed?_some {payloads : List Payload} {name : String} {last : Payload}
    (h : lastNamed? payloads name = some last) : last ∈ payloads ∧ last.fileName = name :=
  ⟨List.mem_reverse.mp (List.mem_of_find?_eq_some h), by simpa using List.find?_some h⟩

end Payload

namespace Store

variable {s t : Store} {w : Workspace} {payload : Payload}

/-! ### One payload -/

theorem locate_payloadFile (w : Workspace) (payload : Payload) :
    locate (payload.file w) = w.dataPlace ++ [payload.fileName] :=
  locate_joinText (isName_hexChecksum _) _

/-- To keep a payload is to make the directory, to write the text and to set the mode. -/
theorem keepPayload_ok (h : (Session.keepPayload s w payload).1.isOk) :
    ∃ made mode, s.makeDirectories (parentPath (tidyText (payload.file w))) = .ok made ∧
      (Session.keepPayload s w payload).2 =
        (made.put (w.dataPlace ++ [payload.fileName]) (.file payload.text mode)).put
          (w.dataPlace ++ [payload.fileName]) (.file payload.text (payload.mode % 0o10000)) := by
  have hpath := locate_payload w payload
  have hne : w.dataPlace ++ [payload.fileName] ≠ [] := List.concat_ne_nil _ _
  unfold Session.keepPayload at h ⊢
  cases hmake : s.makeDirectories (parentPath (tidyText (payload.file w))) with
  | error e =>
    simp only [hmake] at h
    cases h
  | ok made =>
    simp only [hmake] at h ⊢
    cases hkeep : Session.keepText made (tidyText (payload.file w)) payload.text with
    | error e =>
      simp only [hkeep] at h
      cases h
    | ok kept =>
      simp only [hkeep] at h ⊢
      obtain ⟨hname, hreach, mode, hkept⟩ := keepText_ok hkeep
      rw [hpath] at hkept
      have hbut : SameBut (w.dataPlace ++ [payload.fileName]) made kept := hkept ▸ .put hne made _
      have hreach' : kept.Reaches (locate (tidyText (payload.file w))) := hbut.reaches (by rw [hpath]) hreach
      have hfound : kept.find? (w.dataPlace ++ [payload.fileName]) = some (.file payload.text mode) := by
        rw [hkept, find?_put _ _ _ _ hne, if_pos rfl]
      have hmode := setMode_eq hname hreach' payload.mode
      rw [hpath, hfound] at hmode
      by_cases hchange : kept.refuses .changeMode (w.dataPlace ++ [payload.fileName]) = true
      · rw [if_pos hchange] at hmode
        simp only [hmode, failAt] at h
        cases h
      · rw [if_neg hchange] at hmode
        simp only [hmode]
        exact ⟨made, mode, rfl, by rw [hkept]⟩

theorem find?_keepPayload (h : (Session.keepPayload s w payload).1.isOk) :
    (Session.keepPayload s w payload).2.find? (w.dataPlace ++ [payload.fileName]) =
      some (.file payload.text (payload.mode % 0o10000)) := by
  obtain ⟨made, mode, -, hkept⟩ := keepPayload_ok h
  rw [hkept, find?_put _ _ _ _ (List.concat_ne_nil _ _), if_pos rfl]

theorem find?_keepPayload_of_ne (h : (Session.keepPayload s w payload).1.isOk) {place : Location} {text : String}
    {mode : Nat} (hplace : place ≠ w.dataPlace ++ [payload.fileName]) :
    (Session.keepPayload s w payload).2.find? place = some (.file text mode) ↔
      s.find? place = some (.file text mode) := by
  obtain ⟨made, _, hmake, hkept⟩ := keepPayload_ok h
  obtain ⟨-, -, hfiles⟩ := makeDirectories_ok hmake
  have hne : w.dataPlace ++ [payload.fileName] ≠ [] := List.concat_ne_nil _ _
  rw [hkept, find?_put _ _ _ _ hne, if_neg hplace, find?_put _ _ _ _ hne, if_neg hplace, hfiles]

/-! ### All payloads of a run -/

/-- The store after payloads have been kept one after another. -/
def keepAll (w : Workspace) (s : Store) (payloads : List Payload) : Store :=
  payloads.foldl (fun s payload => (Session.keepPayload s w payload).2) s

theorem keepAll_cons (w : Workspace) (s : Store) (first : Payload) (rest : List Payload) :
    keepAll w s (first :: rest) = keepAll w (Session.keepPayload s w first).2 rest := by
  rw [keepAll, keepAll, List.foldl_cons]

theorem find?_keepAll_of_notMem {payloads : List Payload} {place : Location} {text : String} {mode : Nat}
    (hwrite : CanWrite w s payloads) (hplace : ∀ payload ∈ payloads, place ≠ w.dataPlace ++ [payload.fileName]) :
    (keepAll w s payloads).find? place = some (.file text mode) ↔ s.find? place = some (.file text mode) := by
  induction payloads generalizing s with
  | nil => exact .rfl
  | cons first rest ih =>
    obtain ⟨hfirst, hrest⟩ := hwrite
    obtain ⟨hne, hplace⟩ := List.forall_mem_cons.mp hplace
    rw [keepAll_cons, ih hrest hplace, find?_keepPayload_of_ne hfirst hne]

/-- A payload file holds the last payload with its name. -/
theorem find?_keepAll {payloads : List Payload} {name : String} {last : Payload}
    (hwrite : CanWrite w s payloads) (hlast : Payload.lastNamed? payloads name = some last) :
    (keepAll w s payloads).find? (w.dataPlace ++ [name]) = some (.file last.text (last.mode % 0o10000)) := by
  induction payloads generalizing s with
  | nil => cases hlast
  | cons first rest ih =>
    obtain ⟨hfirst, hrest⟩ := hwrite
    rw [Payload.lastNamed?_cons, Option.or_eq_some_iff] at hlast
    rw [keepAll_cons]
    rcases hlast with hlast | ⟨hnone, hfound⟩
    · exact ih hrest hlast
    · split at hfound
      case isFalse => cases hfound
      case isTrue hname =>
        cases hfound
        subst hname
        rw [find?_keepAll_of_notMem hrest, find?_keepPayload hfirst]
        intro payload hpayload hplace
        exact Payload.lastNamed?_eq_none_iff.mp hnone payload hpayload
          (List.singleton_inj.mp (List.append_cancel_left hplace)).symm

/-- The file of a payload holds it. -/
def HoldsPayload (s : Store) (w : Workspace) (payload : Payload) : Prop :=
  ∃ mode, s.find? (locate (payload.file w)) = some (.file payload.text mode)

end Store

/-! ### A run -/

theorem AnyStep.command_signature {step : AnyStep} {payload : Payload} (w : Workspace)
    (h : step.payload = some payload) : (step.signature w).rule.command = payload.command w := by
  rw [signature, h]
  cases step with
  | plain step => rfl
  | ruled step => cases h

theorem mem_payloadsOf {steps : List TracedStep} {payload : Payload} :
    payload ∈ payloadsOf steps ↔ ∃ t ∈ making steps, t.step.payload = some payload := List.mem_filterMap

theorem Store.keepAll_payloadsOf_cons {w : Workspace} {t : TracedStep} (houts : t.step.outs ≠ []) (s : Store)
    (rest : List TracedStep) :
    s.keepAll w (payloadsOf (t :: rest)) = (Session.storeAfter w s t.step.payload).keepAll w (payloadsOf rest) := by
  rw [payloadsOf, making_cons_of_ne houts, List.filterMap_cons]
  cases t.step.payload with
  | none => rw [Session.storeAfter, payloadsOf]
  | some payload => rw [Session.storeAfter, payloadsOf, ← Store.keepAll_cons]

theorem addSteps_store {w : Workspace} (steps : List TracedStep) {s s' : Session}
    (hadd : addSteps w steps s = .ok () s') :
    CanWrite w s.store (payloadsOf steps) ∧ s'.store = s.store.keepAll w (payloadsOf steps) := by
  induction steps generalizing s with
  | nil =>
    cases hadd
    exact ⟨trivial, rfl⟩
  | cons t rest ih =>
    obtain ⟨u, ht, hrest⟩ := addSteps_cons_eq_ok_iff.mp hadd
    obtain ⟨hcan, hstore⟩ := ih hrest
    by_cases houts : t.step.outs = []
    · rw [TracedStep.add_of_outs_eq_nil houts] at ht
      cases ht
      rw [payloadsOf, making_cons_of_eq houts]
      exact ⟨hcan, hstore⟩
    · obtain ⟨v, hstep, rfl⟩ := TracedStep.add_eq_ok_iff.mp ht
      obtain ⟨-, hwrite, g₁, g', -, -, rfl⟩ := (Session.addStep_eq_ok_iff houts).mp hstep
      rw [canWrite_cons houts, Store.keepAll_payloadsOf_cons houts]
      exact ⟨⟨hwrite, hcan⟩, hstore⟩

theorem signature_mem_of_addSteps {p : Project} {settings : Settings} {steps : List TracedStep} {s : Session}
    (hadd : addSteps p.workspace steps (p.start settings) = .ok () s) {t : TracedStep} (ht : t ∈ making steps) :
    t.step.signature p.workspace ∈ s.graph.sortedStatements := by
  have hrecords := addSteps_records steps (.empty p.workspace) rfl hadd
  rw [(Graph.sortedStatements_perm s.graph).mem_iff, hrecords.edges.mem_statements]
  exact mem_statements_logOf.mpr ⟨t, ht, rfl⟩

/-- **A payload file holds the last payload of the run that has its name.** The edge of a step with a payload has a
command for that file, and all files hold the payloads of all their steps exactly if payloads that have one name have
one text. -/
theorem addSteps_payloads (p : Project) (settings : Settings) (steps : List TracedStep) (s : Session)
    (hadd : addSteps p.workspace steps (p.start settings) = .ok () s) :
    (∀ t ∈ making steps, ∀ payload, t.step.payload = some payload →
      t.step.signature p.workspace ∈ s.graph.sortedStatements ∧
      commandWords (t.step.signature p.workspace).rule.command = some (payload.words p.workspace) ∧
      ∃ last, Payload.lastNamed? (payloadsOf steps) payload.fileName = some last ∧
        s.store.find? (locate (payload.file p.workspace)) = some (.file last.text (last.mode % 0o10000))) ∧
    ((∀ payload ∈ payloadsOf steps, s.store.HoldsPayload p.workspace payload) ↔
      ∀ payload ∈ payloadsOf steps, ∀ other ∈ payloadsOf steps,
        payload.fileName = other.fileName → payload.text = other.text) := by
  obtain ⟨hwrite, hstore⟩ := addSteps_store steps hadd
  have hlast : ∀ payload ∈ payloadsOf steps, ∃ last,
      Payload.lastNamed? (payloadsOf steps) payload.fileName = some last ∧
        s.store.find? (locate (payload.file p.workspace)) = some (.file last.text (last.mode % 0o10000)) := by
    intro payload hpayload
    cases hlast : Payload.lastNamed? (payloadsOf steps) payload.fileName with
    | none => exact absurd rfl (Payload.lastNamed?_eq_none_iff.mp hlast payload hpayload)
    | some last =>
      refine ⟨last, rfl, ?_⟩
      rw [hstore, Store.locate_payloadFile]
      exact Store.find?_keepAll hwrite hlast
  refine ⟨fun t ht payload hpayload => ⟨?_, ?_, ?_⟩, ?_⟩
  · exact signature_mem_of_addSteps hadd ht
  · rw [AnyStep.command_signature p.workspace hpayload]
    exact commandWords_escapeValue _
  · exact hlast payload (mem_payloadsOf.mpr ⟨t, ht, hpayload⟩)
  · constructor
    · intro hholds payload hpayload other hother hname
      obtain ⟨mode, hfound⟩ := hholds payload hpayload
      obtain ⟨mode', hfound'⟩ := hholds other hother
      rw [Store.locate_payloadFile, hname, ← Store.locate_payloadFile, hfound', Option.some.injEq] at hfound
      exact ((Node.file.injEq ..).mp hfound).1.symm
    · intro hsame payload hpayload
      obtain ⟨last, hlast, hfound⟩ := hlast payload hpayload
      obtain ⟨hmem, hname⟩ := Payload.lastNamed?_some hlast
      rw [hsame last hmem payload hpayload hname] at hfound
      exact ⟨_, hfound⟩

theorem addSteps_payloads_sample : ∃ s,
    addSteps sampleProject.workspace sampleSteps (sampleProject.start {}) = .ok () s ∧
      ∀ payload ∈ payloadsOf sampleSteps, s.store.HoldsPayload sampleProject.workspace payload := by
  have hadd : Succeeds (addSteps sampleProject.workspace sampleSteps) (sampleProject.start {}) := by decide +kernel
  obtain ⟨_, s, hadd⟩ := hadd
  exact ⟨s, hadd, (addSteps_payloads sampleProject {} sampleSteps s hadd).2.mpr (by decide +kernel)⟩

/-- A step with a script. -/
def scriptStep (out script : String) : TracedStep :=
  { step := .plain { out := some (.out (sampleProject.workspace.out out)), script } }

/-- Two scripts with one checksum. -/
def collidingSteps : List TracedStep := [scriptStep "x" "plumless", scriptStep "y" "buckeroo"]

/-- The second script replaces the first one, and the command of the first step runs it from then on. -/
theorem payload_can_be_replaced : ∃ s,
    addSteps sampleProject.workspace collidingSteps (sampleProject.start {}) = .ok () s ∧
      (scriptStep "x" "plumless").step.signature sampleProject.workspace ∈ s.graph.sortedStatements ∧
      commandWords ((scriptStep "x" "plumless").step.signature sampleProject.workspace).rule.command =
        some ["/DATA/4DDB0C25"] ∧
      s.store.find? (locate "/DATA/4DDB0C25") = some (.file "buckeroo" scriptMode) := by
  have hadd : Succeeds (addSteps sampleProject.workspace collidingSteps) (sampleProject.start {}) := by decide +kernel
  obtain ⟨_, s, hadd⟩ := hadd
  obtain ⟨hwrite, hstore⟩ := addSteps_store collidingSteps hadd
  have hplace : locate "/DATA/4DDB0C25" = sampleProject.workspace.dataPlace ++ ["4DDB0C25"] := by decide +kernel
  have hlast : Payload.lastNamed? (payloadsOf collidingSteps) "4DDB0C25" = some (.script "buckeroo") := by
    decide +kernel
  have hmem : scriptStep "x" "plumless" ∈ making collidingSteps :=
    List.mem_filter.mpr ⟨List.mem_cons_self, by decide +kernel⟩
  refine ⟨s, hadd, signature_mem_of_addSteps hadd hmem, by decide +kernel, ?_⟩
  rw [hstore, hplace]
  exact Store.find?_keepAll hwrite hlast

end BuildPlan
