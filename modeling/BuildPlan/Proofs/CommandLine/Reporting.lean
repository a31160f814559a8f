import BuildPlan.CommandLine.Command
import BuildPlan.Proofs.Generate.Changes
import BuildPlan.Proofs.Generate.Rerun
import BuildPlan.Proofs.Json.Documents

/-!
# What a command reports

A command whose run fails reports nothing but its error: it prints no document and leaves all files as they are, apart
from the remembered flags and the payloads. One that succeeds writes its results whole, and the two files that it writes
agree with each other.
-/

namespace BuildPlan.CommandLine

variable {files : BuildFiles} {store : Store} {words : List String} {a : Arguments} {input : Input} {output : Output}
  {s t : LoadState} {path text : String}

theorem command_of_run (hread : Request.read words = .run a) :
    command files store words = runArguments files store a := by
  rw [command, hread]

theorem runArguments_of_input (hinput : a.toInput store = .ok input) :
    runArguments files store a = carryOut files store a input := by
  rw [runArguments, hinput]

/-! ### Writing the results -/

attribute [local irreducible] Store.writeAtomically in
theorem writeResult_eq (path text : String) :
    writeResult path text = LoadState.onSettings (Settings.onStore (Store.replaceFile (tidyText path) text)) := rfl

theorem nameable_of_replaceFile {s t : Store} (h : Store.replaceFile path text s = (.ok (), t)) : Nameable path := by
  rcases Store.checkName_cases path with hname | hbad
  · have hnul := Store.notMem_of_checkName hname
    simpa [Nameable] using hnul
  · unfold Store.replaceFile Store.writeAtomically at h
    rw [hbad] at h
    cases hmake : s.makeDirectories (Store.parentPath path) <;> rw [hmake] at h <;> cases h

theorem writeResult_ok (h : writeResult path text s = .ok () t) :
    t.store.find? (locate path) = some (.file text plainMode) ∧ s.store.ChangesAt (· = locate path) t.store := by
  rw [writeResult_eq] at h
  obtain ⟨settings, hsettings, rfl⟩ := LoadState.onSettings_eq_ok_iff.mp h
  obtain ⟨written, hreplace, rfl⟩ := Settings.onStore_eq_ok_iff.mp hsettings
  have hreplaces := s.store.replaceFile_replaces (nameable_of_replaceFile hreplace) text
  rw [hreplace] at hreplaces
  cases hreplaces with
  | done hfile hothers =>
    rw [locate_tidyText] at hfile hothers
    exact ⟨hfile, hothers⟩

/-- A run that generates a build, and that writes it and the document to files, writes both of them. -/
theorem writeResults_ok {mode : Mode} {stdout : String} (hmode : mode.generates = true)
    (hninja : a.ninjaFile = some path) (hpath : path ≠ "") (houtput : a.output ≠ "-")
    (hdiffer : locate path ≠ locate a.output) (h : writeResults a mode output s = .ok stdout t) :
    t.store.find? (locate path) = some (.file output.ninjaFile plainMode) ∧
      t.store.find? (locate a.output) = some (.file output.text plainMode) ∧
      s.store.ChangesAt (fun place => place = locate path ∨ place = locate a.output) t.store := by
  have hboth : writeResults a mode output s = (do
      writeResult path output.ninjaFile
      writeResult a.output output.text
      return "" : LoadM String) s := by
    rw [writeResults, hninja]
    simp only [hpath, hmode, houtput, ne_eq, not_false_eq_true, and_self, if_true, if_false]
  rw [hboth] at h
  obtain ⟨_, u, hfirst, h⟩ := bind_eq_ok_iff.mp h
  obtain ⟨_, v, hsecond, h⟩ := bind_eq_ok_iff.mp h
  cases h
  obtain ⟨hfile, hothers⟩ := writeResult_ok hfirst
  obtain ⟨hdocument, hothers'⟩ := writeResult_ok hsecond
  refine ⟨(hothers' _ hdiffer _ _).mpr hfile, hdocument, ?_⟩
  refine (Store.ChangesAt.lasting _).trans (hothers.mono fun _ => .inl) (hothers'.mono fun _ => .inr)

theorem carryOut_of_error {e : Failure} (h : generateFromTree files input { store } = .error e s) :
    carryOut files store a input = (failed [] e, s.store) := by
  unfold carryOut
  simp only [h]

/-- A command that ends with the code zero has had a run, and has written its results. -/
theorem carryOut_ok {outcome : Outcome} {t : Store} (h : carryOut files store a input = (.ok outcome, t))
    (hcode : outcome.exitCode = 0) :
    ∃ output s u, generateFromTree files input { store } = .ok output s ∧
      writeResults a input.mode output s = .ok outcome.stdout u ∧ t = u.store := by
  have hfailed : ∀ log e, failed log e = .ok outcome → False := by
    rintro log (e | f) hfailed
    · cases hfailed
      cases hcode
    · cases hfailed
  unfold carryOut at h
  cases hrun : generateFromTree files input { store } with
  | error e s =>
    rw [hrun] at h
    exact (hfailed _ _ (Prod.mk.inj h).1).elim
  | ok output s =>
    rw [hrun] at h
    simp only at h
    cases hwrite : writeResults a input.mode output s with
    | error e u =>
      rw [hwrite] at h
      exact (hfailed _ _ (Prod.mk.inj h).1).elim
    | ok stdout u =>
      rw [hwrite] at h
      obtain ⟨houtcome, rfl⟩ := Prod.mk.inj h
      cases houtcome
      exact ⟨output, s, u, rfl, hwrite, rfl⟩

/-- **A command whose run fails reports nothing**: it ends with the code one, prints nothing, and changes no files but
those that the run may have changed. A command that ends well and writes the Ninja file and the document to two files
has put the text of the one into the other, and leaves no other file behind. -/
theorem command_reports (files : BuildFiles) (hfiles : files.RunOnly Action.WritesBySteps) (store : Store)
    (words : List String) (a : Arguments) (hread : Request.read words = .run a) :
    (∀ e, a.toInput store = .error (.build e) →
      command files store words = (.ok { exitCode := 1, stdout := "", log := ["ERROR: " ++ e.message] }, store)) ∧
      ∀ input, a.toInput store = .ok input →
        (∀ e s, generateFromTree files input { store } = .error (.build e) s →
          command files store words =
              (.ok { exitCode := 1, stdout := "", log := ["ERROR: " ++ e.message] }, s.store) ∧
            store.ChangesAt (MayChange files input store) s.store) ∧
        ∀ path outcome t, input.mode.generates = true → a.ninjaFile = some path → path ≠ "" → a.output ≠ "-" →
          locate path ≠ locate a.output → command files store words = (.ok outcome, t) → outcome.exitCode = 0 →
          ∃ text document fields, t.find? (locate path) = some (.file text plainMode) ∧
            t.find? (locate a.output) = some (.file document plainMode) ∧
            Json.read document = .ok (.object fields) ∧ Json.field? fields "ninja_file" = some (.string text) ∧
            store.ChangesAt (fun place => MayChange files input store place ∨
              place = locate path ∨ place = locate a.output) t := by
  rw [command_of_run hread]
  constructor
  · intro e hinput
    rw [runArguments, hinput]
    rfl
  intro input hinput
  have hchanges := changesAt_generateFromTree hfiles input store
  rw [runArguments_of_input hinput]
  constructor
  · intro e s hrun
    rw [endState_of_error hrun] at hchanges
    refine ⟨?_, hchanges⟩
    rw [carryOut_of_error hrun, failed, List.nil_append]
  · intro path outcome t hmode hninja hpath houtput hdiffer hcommand hcode
    obtain ⟨output, s, u, hrun, hwrite, rfl⟩ := carryOut_ok hcommand hcode
    rw [endState_of_ok hrun] at hchanges
    obtain ⟨hfile, hdocument, hresults⟩ := writeResults_ok hmode hninja hpath houtput hdiffer hwrite
    obtain ⟨fields, hread, hfield⟩ := output.ninjaFile_of_read
    refine ⟨output.ninjaFile, output.text, fields, hfile, hdocument, hread, hfield, ?_⟩
    exact (Store.ChangesAt.lasting _).trans (hchanges.mono fun _ => .inl) (hresults.mono fun _ => .inr)

/-- A source tree with a target that writes a payload, and that may then raise an error. -/
def haltingFiles (halts : Bool) : BuildFiles :=
  [(["src", "BUILD.py"], [.register { flag := levelFlag }, .define "report" "report" (.custom
    { build := reportTarget.build ++ if halts then [.fail (.of (.reported .buildStep "halt"))] else [] })])]

theorem runOnly_haltingFiles (halts : Bool) : (haltingFiles halts).RunOnly Action.WritesBySteps := by
  intro file definitions hfile variableName name c hdefine action haction
  obtain ⟨-, rfl⟩ := Prod.mk.inj (List.mem_singleton.mp hfile)
  rcases List.mem_cons.mp hdefine with hregister | hdefine
  · cases hregister
  obtain ⟨-, -, hthing⟩ := Definition.define.inj (List.mem_singleton.mp hdefine)
  cases hthing
  have hplain : ((reportTarget.build ++
      if halts then [.fail (.of (.reported .buildStep "halt"))] else []) : List Action).all Action.isPlain := by
    cases halts <;> rfl
  simp only [Custom.actions, Option.elim_none, List.append_nil] at haction
  exact Action.writesBySteps_of_isPlain (List.all_eq_true.mp hplain action haction)

/-- A command that builds the source tree, and writes its results to two files. -/
def reportWords : List String :=
  ["build", "/src", "/out/build", "/", "level=3", "--ninja-file", "/build.ninja", "-o", "/output.json"]

/-- What the command is to do. -/
def reportArguments : Arguments :=
  { output := "/output.json", ninjaFile := some "/build.ninja", mode := some .build, sourceDir := some "/src",
    buildRoot := some "/out/build", workingDir := some "/", flags := ["level=3"] }

/-- The run has an input, but fails. -/
def runFails (files : BuildFiles) (store : Store) (a : Arguments) : Bool :=
  match a.toInput store with
  | .error _ => false
  | .ok input =>
    match generateFromTree files input { store } with
    | .error (.build _) _ => true
    | _ => false

theorem exists_of_runFails (h : runFails files store a = true) :
    ∃ input e s, a.toInput store = .ok input ∧ generateFromTree files input { store } = .error (.build e) s := by
  unfold runFails at h
  split at h
  · cases h
  case h_2 input hinput =>
    split at h
    case h_1 e s hrun => exact ⟨input, e, s, hinput, hrun⟩
    case h_2 => cases h

theorem command_reports_sample :
    (∃ input t, runFails (haltingFiles true) reportTree reportArguments = true ∧
        command (haltingFiles true) reportTree reportWords =
          (.ok { exitCode := 1, stdout := "", log := ["ERROR: target 'report': halt"] }, t) ∧
        reportTree.ChangesAt (MayChange (haltingFiles true) input reportTree) t) ∧
      ∃ outcome t text document fields, command (haltingFiles false) reportTree reportWords = (.ok outcome, t) ∧
        t.find? ["build.ninja"] = some (.file text plainMode) ∧
        t.find? ["output.json"] = some (.file document plainMode) ∧
        Json.read document = .ok (.object fields) ∧ Json.field? fields "ninja_file" = some (.string text) := by
  have hread : Request.read reportWords = .run reportArguments := by decide +kernel
  constructor
  · have hfails : runFails (haltingFiles true) reportTree reportArguments = true := by decide +kernel
    have hlog : (command (haltingFiles true) reportTree reportWords).1.toOption.map (·.log) =
        some ["ERROR: target 'report': halt"] := by decide +kernel
    obtain ⟨input, e, s, hinput, hrun⟩ := exists_of_runFails hfails
    obtain ⟨-, hrest⟩ := command_reports _ (runOnly_haltingFiles true) reportTree reportWords reportArguments hread
    obtain ⟨hcommand, hchanges⟩ := (hrest input hinput).1 e s hrun
    rw [hcommand] at hlog
    rw [← Option.some.inj hlog]
    exact ⟨input, s.store, hfails, hcommand, hchanges⟩
  · have hmode : (reportArguments.toInput reportTree).toOption.map (·.mode.generates) = some true := by decide +kernel
    have hcode : (command (haltingFiles false) reportTree reportWords).1.toOption.map (·.exitCode) = some 0 := by
      decide +kernel
    cases hinput : reportArguments.toInput reportTree with
    | error e =>
      rw [hinput] at hmode
      cases hmode
    | ok input =>
      rw [hinput] at hmode
      obtain ⟨-, hrest⟩ := command_reports _ (runOnly_haltingFiles false) reportTree reportWords reportArguments hread
      obtain ⟨-, hsuccess⟩ := hrest input hinput
      rcases hcommand : command (haltingFiles false) reportTree reportWords with ⟨e | outcome, t⟩
      · rw [hcommand] at hcode
        cases hcode
      · rw [hcommand] at hcode
        obtain ⟨text, document, fields, hfile, hdocument, hjson, hfield, -⟩ := hsuccess "/build.ninja" outcome t
          (Option.some.inj hmode) rfl (by decide) (by decide) (by decide) hcommand (Option.some.inj hcode)
        exact ⟨outcome, t, text, document, fields, rfl, hfile, hdocument, hjson, hfield⟩

end BuildPlan.CommandLine
