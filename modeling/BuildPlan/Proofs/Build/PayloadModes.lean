import BuildPlan.Proofs.Build.PayloadFiles

/-!
# Which modes payload files have

The name of a payload file tells of its contents, not of its mode, and the mode is set each time a payload is kept. So
the last payload with a name decides on the mode as on the text: `addSteps_payloadModes`. A script and data with one
text share a file, and the script can no longer be run if the data comes after it: `payload_mode_can_be_lost`.
-/

namespace BuildPlan

/-- The mode that the file of a payload gets; no file has more bits than these. -/
def Payload.fileMode (payload : Payload) : Nat := payload.mode % 0o10000

theorem Payload.exists_lastNamed? {payloads : List Payload} {payload : Payload} (h : payload ∈ payloads) :
    ∃ last, lastNamed? payloads payload.fileName = some last := by
  refine Option.isSome_iff_exists.mp (Option.isSome_iff_ne_none.mpr fun hnone => ?_)
  exact lastNamed?_eq_none_iff.mp hnone payload h rfl

namespace Store

variable {s : Store} {w : Workspace}

/-- The file of a payload has a certain mode. -/
def HasMode (s : Store) (w : Workspace) (payload : Payload) (mode : Nat) : Prop :=
  ∃ text, s.find? (locate (payload.file w)) = some (.file text mode)

theorem HasMode.eq {payload other : Payload} {mode mode' : Nat} (h : s.HasMode w payload mode)
    (h' : s.HasMode w other mode') (hname : payload.fileName = other.fileName) : mode = mode' := by
  obtain ⟨text, hfound⟩ := h
  obtain ⟨text', hfound'⟩ := h'
  rw [locate_payloadFile, hname, ← locate_payloadFile, hfound', Option.some.injEq] at hfound
  exact ((Node.file.injEq ..).mp hfound).2.symm

theorem hasMode_keepAll {payloads : List Payload} {payload last : Payload} (hwrite : CanWrite w s payloads)
    (hlast : Payload.lastNamed? payloads payload.fileName = some last) :
    (s.keepAll w payloads).HasMode w payload last.fileMode := by
  rw [HasMode, locate_payloadFile]
  exact ⟨last.text, find?_keepAll hwrite hlast⟩

/-- All files have the modes of all their payloads exactly if payloads with one name have one mode. -/
theorem forall_hasMode_keepAll_iff {payloads : List Payload} (hwrite : CanWrite w s payloads) :
    (∀ payload ∈ payloads, (s.keepAll w payloads).HasMode w payload payload.fileMode) ↔
      ∀ payload ∈ payloads, ∀ other ∈ payloads,
        payload.fileName = other.fileName → payload.fileMode = other.fileMode := by
  constructor
  · intro hmode payload hpayload other hother hname
    exact (hmode payload hpayload).eq (hmode other hother) hname
  · intro hsame payload hpayload
    obtain ⟨last, hlast⟩ := Payload.exists_lastNamed? hpayload
    obtain ⟨hmem, hname⟩ := Payload.lastNamed?_some hlast
    rw [hsame payload hpayload last hmem hname.symm]
    exact hasMode_keepAll hwrite hlast

end Store

/-- **A payload file has the mode of the last payload of the run that has its name.** The edge of a step with a payload
has a command for that file. The file has the mode of this payload exactly if it is the mode of the last one, and all
files have the modes of all their payloads exactly if payloads that have one name have one mode. -/
theorem addSteps_payloadModes (p : Project) (settings : Settings) (steps : List TracedStep) (s : Session)
    (hadd : addSteps p.workspace steps (p.start settings) = .ok () s) :
    (∀ t ∈ making steps, ∀ payload, t.step.payload = some payload →
      t.step.signature p.workspace ∈ s.graph.sortedStatements ∧
      commandWords (t.step.signature p.workspace).rule.command = some (payload.words p.workspace) ∧
      ∃ last, Payload.lastNamed? (payloadsOf steps) payload.fileName = some last ∧
        ∀ mode, s.store.HasMode p.workspace payload mode ↔ mode = last.fileMode) ∧
    ((∀ payload ∈ payloadsOf steps, s.store.HasMode p.workspace payload payload.fileMode) ↔
      ∀ payload ∈ payloadsOf steps, ∀ other ∈ payloadsOf steps,
        payload.fileName = other.fileName → payload.fileMode = other.fileMode) := by
  obtain ⟨hwrite, hstore⟩ := addSteps_store steps hadd
  rw [hstore]
  refine ⟨fun t ht payload hpayload => ⟨signature_mem_of_addSteps hadd ht, ?_, ?_⟩,
    Store.forall_hasMode_keepAll_iff hwrite⟩
  · rw [AnyStep.command_signature p.workspace hpayload]
    exact commandWords_escapeValue _
  · obtain ⟨last, hlast⟩ := Payload.exists_lastNamed? (mem_payloadsOf.mpr ⟨t, ht, hpayload⟩)
    have hmode := Store.hasMode_keepAll hwrite hlast
    exact ⟨last, hlast, fun mode => ⟨fun h => h.eq hmode rfl, fun h => h ▸ hmode⟩⟩

/-- A step with data. -/
def dataStep (out data : String) (dataMode : Nat) : TracedStep :=
  { step := .plain { out := some (.out (sampleProject.workspace.out out)), data, dataMode } }

/-- A script between data with the same text that asks for the mode of a script. -/
def agreeingSteps : List TracedStep :=
  [dataStep "y" "exit 0" scriptMode, scriptStep "x" "exit 0", dataStep "z" "exit 0" scriptMode]

theorem addSteps_payloadModes_sample : ∃ s,
    addSteps sampleProject.workspace agreeingSteps (sampleProject.start {}) = .ok () s ∧
      ∀ payload ∈ payloadsOf agreeingSteps, s.store.HasMode sampleProject.workspace payload payload.fileMode := by
  have hadd : Succeeds (addSteps sampleProject.workspace agreeingSteps) (sampleProject.start {}) := by decide +kernel
  obtain ⟨_, s, hadd⟩ := hadd
  exact ⟨s, hadd, (addSteps_payloadModes sampleProject {} agreeingSteps s hadd).2.mpr (by decide +kernel)⟩

/-- A script, and data with the same text. -/
def sharingSteps : List TracedStep := [scriptStep "x" "exit 0", dataStep "y" "exit 0" 0]

/-- The data takes the mode of a script away from the file that the command of the first step runs. -/
theorem payload_mode_can_be_lost : ∃ s,
    addSteps sampleProject.workspace sharingSteps (sampleProject.start {}) = .ok () s ∧
      (scriptStep "x" "exit 0").step.signature sampleProject.workspace ∈ s.graph.sortedStatements ∧
      commandWords ((scriptStep "x" "exit 0").step.signature sampleProject.workspace).rule.command =
        some [(Payload.script "exit 0").file sampleProject.workspace] ∧
      s.store.HasMode sampleProject.workspace (.script "exit 0") plainMode ∧
      ¬s.store.HasMode sampleProject.workspace (.script "exit 0") scriptMode := by
  have hadd : Succeeds (addSteps sampleProject.workspace sharingSteps) (sampleProject.start {}) := by decide +kernel
  obtain ⟨_, s, hadd⟩ := hadd
  obtain ⟨hwrite, hstore⟩ := addSteps_store sharingSteps hadd
  have hlast : Payload.lastNamed? (payloadsOf sharingSteps) (Payload.script "exit 0").fileName =
      some (.data "exit 0" plainMode (.out (sampleProject.workspace.out "y"))) := by decide +kernel
  have hmode := Store.hasMode_keepAll hwrite hlast
  rw [← hstore] at hmode
  have hmem : scriptStep "x" "exit 0" ∈ making sharingSteps :=
    List.mem_filter.mpr ⟨List.mem_cons_self, by decide +kernel⟩
  refine ⟨s, hadd, signature_mem_of_addSteps hadd hmem, by decide +kernel, hmode, fun h => ?_⟩
  have hsame : scriptMode = plainMode % 0o10000 := h.eq hmode rfl
  exact absurd hsame (by decide)

end BuildPlan
