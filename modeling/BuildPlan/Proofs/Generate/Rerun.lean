import BuildPlan.Proofs.Build.InStep
import BuildPlan.Proofs.Flag.Memory
import BuildPlan.Proofs.Generate.Stages
import BuildPlan.Proofs.Package.InStep
import BuildPlan.Proofs.Store.Directories

/-!
# Running again

A run remembers its flags, and keeps its payload files. When it is done again, with any part of its command line left
out, it puts out the same and leaves all files as they are. This takes files that the run may read and write once it has
made them, values of the types of their flags, and factories that register nothing; `second_run_may_fail` shows each of
the three missing.
-/

namespace BuildPlan

variable {files : BuildFiles} {input : Input} {output : Output} {locked : LockedFlags}

/-! ### Loading again -/

theorem replays_firstRegistry {flags flags' : Assoc String String}
    (h : ∀ {name text}, Assoc.find? flags' name = some text → Assoc.find? flags name = some text)
    (remembered texts : Assoc String String) :
    Registry.Replays texts (firstRegistry flags remembered) (firstRegistry flags' texts) where
  flags := rfl
  locked := rfl
  locked' := rfl
  named := nofun
  commandLine := h
  remembered := rfl
  sourced := nofun
  values := nofun

theorem flagsInStep_replay {final : Registry} {texts : Assoc String String} (hrem : final.Remembers texts) :
    LoadState.FlagsInStep (Registry.replay final texts) where
  text := Registry.inStep_flagText hrem
  adopt := Registry.inStep_adopt
  register := Registry.inStep_register
  read := Registry.inStep_discard_read hrem

theorem grows_of_loadTargets {w : Workspace} {s t : LoadState} (h : LoadState.loadTargets w files s = .ok () t) :
    s.registry.Grows t.registry ∧ t.store = s.store := by
  have hflags : LoadState.FlagsInStep (.alone Registry.Grows.lasting) := {
    text := fun name => .alone (Registry.keeps_flagText name)
    adopt := fun flag => .alone (Registry.keeps_adopt flag)
    register := fun flag => .alone (Registry.keeps_register flag)
    read := fun name => .alone ((Registry.keeps_read _).map Registry.Grows.lasting _) }
  exact (LoadState.inStep_loadTargets hflags w files).keeps.ok h

/-! ### Building again -/

section finish

variable {u s : LoadState}

theorem Finishes.entities (h : Finishes input locked u output s) : s.entities = u.entities := by
  cases h <;> rfl

theorem Finishes.develops (h : Finishes input locked u output s)
    (hp : ∀ c, .custom c ∈ u.entities → ∀ a ∈ c.actions, Action.WritesBySteps a) :
    u.registry.Stays s.registry ∧
      (u.store.Reaches input.workspace.dataPlace → u.store.Develops input.workspace.dataPlace s.store) := by
  cases h with
  | lists => exact ⟨Registry.Stays.lasting.refl _, fun _ => Store.Develops.lasting.refl _⟩
  | builds _ _ hgraph =>
    have hrun : (u.project input locked.hash).RunsOnly Action.WritesBySteps := hp
    have h := (inStep_finalGraph hrun u.store).keeps.ok hgraph
    exact ⟨h.registry, h.store⟩

/-- A second run that has come as far finishes in the same way, and leaves the files that it found. -/
theorem Finishes.again (h : Finishes input locked u output s)
    (hp : ∀ c, .custom c ∈ u.entities → ∀ a ∈ c.actions, Action.WritesBySteps a)
    (hreach : u.store.Reaches input.workspace.dataPlace) (howns : u.store.OwnsWhatItMakes) (u' : LoadState)
    (hentities : u'.entities = u.entities) (hnames : u'.names = u.names) (htargets : u'.targets = u.targets)
    (hregistry : u.registry.LooksLike u'.registry) (hstore : u'.store = s.store) (flags : Assoc String String) :
    ∃ t, Finishes { input with flags } locked u' output t ∧ t.store = s.store := by
  have hselect : u'.targetEntities = u.targetEntities := by
    rw [LoadState.targetEntities, LoadState.targetEntities, hentities, htargets]
  have hproject : u'.project { input with flags } locked.hash = u.project input locked.hash := by
    rw [LoadState.project, LoadState.project, hentities, hnames, htargets]
    rfl
  obtain ⟨-, hdevelops⟩ := h.develops hp
  cases h with
  | lists hmode hselected => exact ⟨u', .lists hmode (by rw [hselect]; exact hselected), hstore⟩
  | @builds targets graph session hmode hselected hgraph =>
    have hrun : (u.project input locked.hash).RunsOnly Action.WritesBySteps := hp
    have hinStep := inStep_finalGraph hrun session.store
    have hmeets : Session.Meets input.workspace.dataPlace session.store
        { (u.project input locked.hash).start u.toSettings with reports := u.reports }
        { (u.project input locked.hash).start u'.toSettings with reports := u'.reports } := by
      refine ⟨hregistry, ⟨?_, hreach, howns, fun place => .inr ?_⟩, rfl, rfl⟩
      · change u.store.Becomes _ u'.store
        rw [hstore]
        exact (hdevelops hreach).becomes
      · change u'.store.find? place = _
        rw [hstore]
    obtain ⟨session', hgraph', hmeets'⟩ := hinStep.ok hmeets hgraph trivial
    have hgrows : u'.store.Grows session'.store := by
      refine ((hinStep.keeps.ok hgraph').store ?_).grows
      change u'.store.Reaches _
      rw [hstore]
      exact (hdevelops hreach).becomes.reaches hreach
    rw [hstore] at hgrows
    refine ⟨{ u' with toSettings := session'.toSettings, reports := session'.reports }, ?_, ?_⟩
    · refine .builds hmode (by rw [hselect]; exact hselected) ?_
      rw [hproject]
      exact hgraph'
    · refine hgrows.eq_of_find? fun place => ?_
      exact (hmeets'.store.settled place).elim id id

end finish

/-! ### Settling again -/

section settle

variable {r final : Registry}

theorem flags_of_settle (hordered : final.Ordered) (hsettle : Registry.settle r = .ok locked final) :
    final.flags = r.flags := by
  have hreads := (Registry.reads_settle fun _ => False).ok hsettle
  exact hreads.quiet (hordered.closed hreads.toGrows) fun _ => False.elim

/-- What locking the first registry records is remembered, and the registry is complete then, if it is in good order in
the end. -/
theorem remembers_of_settle {s : Registry} (hnamed : r.Named) (hsettle : Registry.settle r = .ok locked final)
    (hstays : Registry.Stays { final with locked := some locked } s)
    (htyped : ∀ flag, s.Has flag → flag.HasTypedDefault s) (hordered : s.Ordered)
    (hfloats : ∀ name x, Assoc.find? s.values name = some (.float x) → x.ReadsBack) :
    final.Remembers (Registry.readBack locked) ∧ final.Complete := by
  have hcovers : Registry.Covers final s := ⟨(hstays.covers rfl).flags, hstays.learned⟩
  have hfinal : final.Ordered := hordered.of_covers hcovers (hstays.flags rfl)
  have hflags := flags_of_settle hfinal hsettle
  have hcomplete : final.Complete := fun {name flag} hflag =>
    Registry.complete_of_info hnamed (Registry.info_of_settle hsettle).1 hflags hflag
  refine ⟨.of_settle hsettle hnamed hflags (fun {flag} hhas => ?_) (fun {name x} hvalue => ?_) hfinal, hcomplete⟩
  · exact hcovers.hasTypedDefault (htyped flag (hcovers.has hhas))
  · have hvalues : s.values = final.values := hstays.values ⟨rfl, hcomplete⟩
    exact hfloats name x (hvalues ▸ hvalue)

/-- The second registry records the same. -/
theorem settles_again {r' : Registry} {texts : Assoc String String} (hrem : final.Remembers texts)
    (hmeets : Registry.Replays texts r r') (hsettle : Registry.settle r = .ok locked final) (hcomplete : final.Complete) :
    ∃ final', Registry.settle r' = .ok locked final' ∧
      Registry.LooksLike { final with locked := some locked } { final' with locked := some locked } := by
  obtain ⟨final', hsettle', hreplays⟩ :=
    (Registry.inStep_settle hrem).ok hmeets hsettle (Registry.Grows.lasting.refl final)
  have hnamed' : r'.Named := by
    intro name flag hflag
    exact hmeets.named (by rwa [← hmeets.flags])
  have hflags' : final'.flags = r'.flags := by
    rw [hreplays.flags, flags_of_settle hrem.ordered hsettle, hmeets.flags]
  have hcomplete' : final'.Complete := fun {name flag} hflag =>
    Registry.complete_of_info hnamed' (Registry.info_of_settle hsettle').1 hflags' hflag
  exact ⟨final', hsettle', hreplays.looksLike hcomplete hcomplete' locked⟩

end settle

/-! ### The whole run -/

/-- **A run that is done again puts out the same and leaves the files that it finds**, whatever part of its command line
is left out the second time: the flags that are left out are remembered. What the run makes it must be able to read and
to replace, the values that definitions give of themselves must be of the types of their flags, and factories must not
register flags: they use those only that have been registered before their own. -/
theorem generateFromTree_rerun {store : Store} {s : LoadState} (hpersist : input.persist = true)
    (hwellFormed : store.WellFormed) (howns : store.OwnsWhatItMakes)
    (hrun : generateFromTree files input { store } = .ok output s)
    (hsteps : ∀ c, .custom c ∈ s.entities → ∀ a ∈ c.actions, Action.WritesBySteps a)
    (htyped : ∀ flag, s.registry.Has flag → flag.HasTypedDefault s.registry) (hordered : s.registry.Ordered)
    (hfloats : ∀ name x, Assoc.find? s.registry.values name = some (.float x) → x.ReadsBack)
    (flags : Assoc String String)
    (hflags : ∀ name text, Assoc.find? flags name = some text → Assoc.find? input.flags name = some text) :
    ∃ t, generateFromTree files { input with flags } { store := s.store } = .ok output t ∧ t.store = s.store := by
  -- the first run, stage by stage
  obtain ⟨_, s₁, hopen, hrest⟩ := bind_eq_ok_iff.mp hrun
  obtain ⟨_, s₂, hload, hgenerate⟩ := bind_eq_ok_iff.mp hrest
  obtain ⟨remembered, hremembered, rfl⟩ := openRegistry_eq_ok_iff.mp hopen
  obtain ⟨locked, u, hsettings, hfinish⟩ := generate_eq_ok_iff.mp hgenerate
  obtain ⟨settings, hlock, rfl⟩ := LoadState.onSettings_eq_ok_iff.mp hsettings
  obtain ⟨hgrows, hstore⟩ := grows_of_loadTargets hload
  rw [hpersist, if_pos rfl] at hlock
  obtain ⟨final, saved, hsettle, hsave, rfl⟩ := (Settings.lock_eq_ok_iff hgrows.locked).mp hlock
  rw [hstore, remember_some] at hsave
  obtain ⟨hgrown, hholds⟩ := saveFlags_ok hwellFormed howns hremembered hsave
  have hp := hsteps
  rw [hfinish.entities] at hp
  obtain ⟨hstays, hdevelops⟩ := hfinish.develops hp
  have hdeveloped := hdevelops hholds.reaches_dataPlace
  obtain ⟨hrem, hcomplete⟩ := remembers_of_settle (hgrows.named nofun) hsettle hstays htyped hordered hfloats
  -- the second run
  have hfound := hholds.of_becomes hdeveloped.becomes
  have hfirst : LoadState.Meets (Registry.replay final (Registry.readBack locked))
      { store, registry := firstRegistry input.flags remembered }
      { store := s.store, registry := firstRegistry flags (Registry.readBack locked) } := by
    refine ⟨rfl, rfl, rfl, replays_firstRegistry (fun {name text} => hflags name text) _ _, fun root => ?_⟩
    exact (hdeveloped.grows.packages root).trans (hgrown.packages root)
  have hsettled : s₂.registry.Grows final := ((Registry.reads_settle fun _ => False).ok hsettle).toGrows
  obtain ⟨t₂, hload', hmeets⟩ :=
    (LoadState.inStep_loadTargets (flagsInStep_replay hrem) input.workspace files).ok hfirst hload hsettled
  obtain ⟨-, hstore'⟩ := grows_of_loadTargets hload'
  obtain ⟨final', hsettle', hlooks⟩ := settles_again hrem hmeets.registry hsettle hcomplete
  have hlock' : Settings.lock (some input.workspace.flagsFile) t₂.toSettings =
      .ok locked { registry := { final' with locked := some locked }, store := s.store } := by
    refine (Settings.lock_eq_ok_iff hmeets.registry.locked').mpr ⟨final', s.store, hsettle', ?_, rfl⟩
    rw [hstore', remember_some]
    exact hfound.saveFlags
  have howned : saved.OwnsWhatItMakes := by
    intro place
    rw [hgrown.refuses]
    exact howns place
  obtain ⟨t, hfinish', htstore⟩ := hfinish.again hp hholds.reaches_dataPlace howned
    { t₂ with toSettings := { registry := { final' with locked := some locked }, store := s.store } }
    hmeets.entities hmeets.names hmeets.targets hlooks rfl flags
  refine ⟨t, bind_eq_ok_iff.mpr ⟨(), _, openRegistry_eq_ok_iff.mpr ⟨_, hfound.loadFlags, rfl⟩, ?_⟩, htstore⟩
  refine bind_eq_ok_iff.mpr ⟨(), t₂, hload', generate_eq_ok_iff.mpr ⟨locked, _, ?_, hfinish'⟩⟩
  rw [if_pos hpersist]
  exact LoadState.onSettings_eq_ok_iff.mpr ⟨_, hlock', rfl⟩

/-- A flag with a default. -/
def levelFlag : Flag := { kind := .int, name := "level", default := some (.int 1) }

/-- A flag whose factory goes by the level. -/
def sizeSource : FlagSource where
  flag := { kind := .int, name := "size", factory := some "size" }
  behavior := fun _ => .reads (.definition levelFlag) fun level =>
    match level with
    | .ok (.int n) => .gives (some (.int (n + 1)))
    | .ok _ => .gives none
    | .error failure => .fails failure

/-- A target with a data file in which the value of the first flag stands. -/
def reportTarget : Custom :=
  { build := [.step { out := some (.current "report.txt"), data := [.literal "level ", .flag "level"] }] }

/-- A source tree with one build file, which registers flags and defines the target. -/
def reportFiles (sources : List FlagSource) : BuildFiles :=
  [(["src", "BUILD.py"], sources.map .register ++ [.define "report" "report" (.custom reportTarget)])]

/-- The files of the source tree. -/
def reportTree : Store := { entries := [(["src"], .directory), (["src", "BUILD.py"], .file "" plainMode)] }

/-- A run on the source tree with some flags on its command line. -/
def reportInput (flags : Assoc String String) : Input :=
  { sourceDir := "/src", buildRoot := "/out/build", workingDir := "", flags }

/-- The action adds a step, or fails. -/
def Action.isPlain : Action → Bool
  | .step _ | .fail _ => true
  | _ => false

theorem Action.writesBySteps_of_isPlain {a : Action} (h : a.isPlain) : a.WritesBySteps := by
  cases a with
  | step | fail => exact .intro nofun nofun
  | _ => cases h

/-- The run ends with these flags and values, knows of no factories, and its programs add steps at most. -/
def endsWith (flags : Assoc String Flag) (values : Assoc String FlagValue) :
    EStateM.Result Failure LoadState Output → Bool
  | .ok _ s =>
    s.registry.flags = flags && s.registry.values = values && s.registry.factories.isEmpty &&
      s.entities.all fun entity =>
        match entity with
        | .custom c => c.actions.all Action.isPlain
        | _ => true
  | .error _ _ => false

theorem wellFormed_reportTree : reportTree.WellFormed := Store.wellFormed_of_entries (by decide)

theorem generateFromTree_rerun_sample : ∃ output s t,
    generateFromTree (reportFiles [{ flag := levelFlag }]) (reportInput [("level", "03")]) { store := reportTree } =
        .ok output s ∧
      generateFromTree (reportFiles [{ flag := levelFlag }]) (reportInput []) { store := s.store } = .ok output t ∧
      t.store = s.store := by
  have hends : endsWith [("level", levelFlag)] [("level", .int 3)]
      (generateFromTree (reportFiles [{ flag := levelFlag }]) (reportInput [("level", "03")]) { store := reportTree }) =
        true := by
    decide +kernel
  cases hrun : generateFromTree (reportFiles [{ flag := levelFlag }]) (reportInput [("level", "03")])
      { store := reportTree } with
  | error e s =>
    rw [hrun] at hends
    cases hends
  | ok output s =>
    rw [hrun, endsWith, Bool.and_eq_true, Bool.and_eq_true, Bool.and_eq_true, decide_eq_true_eq, decide_eq_true_eq,
      List.isEmpty_iff] at hends
    obtain ⟨⟨⟨hflags, hvalues⟩, hfactories⟩, hall⟩ := hends
    have hsteps : ∀ c, .custom c ∈ s.entities → ∀ a ∈ c.actions, Action.WritesBySteps a := fun c hc a ha =>
      Action.writesBySteps_of_isPlain (List.all_eq_true.mp (List.all_eq_true.mp hall _ hc) a ha)
    have hsilent : ∀ id call flag, ¬(s.registry.behavior id call).Mentions flag := by
      intro id call flag
      rw [Registry.behavior, hfactories]
      exact FactoryProgram.not_mentions_ofOutcome (.ok none) flag
    have htyped : ∀ flag, s.registry.Has flag → flag.HasTypedDefault s.registry := by
      rintro flag (⟨name, hflag⟩ | hfalse | ⟨id, call, hmentions⟩)
      · rw [hflags] at hflag
        obtain ⟨-, rfl⟩ := Prod.mk.inj (List.mem_singleton.mp (Assoc.mem_of_find? hflag))
        exact ⟨by decide, fun _ hfactory => by cases hfactory⟩
      · exact hfalse.elim
      · exact absurd hmentions (hsilent id call flag)
    have hordered : s.registry.Ordered := fun _ _ _ _ id _ _ call other hmentions =>
      absurd hmentions (hsilent id call other)
    have hfloats : ∀ name x, Assoc.find? s.registry.values name = some (.float x) → x.ReadsBack := by
      intro name x h
      rw [hvalues] at h
      cases List.mem_singleton.mp (Assoc.mem_of_find? h)
    obtain ⟨t, hagain, hstore⟩ := generateFromTree_rerun rfl wellFormed_reportTree (fun _ _ => ⟨rfl, rfl⟩) hrun hsteps
      htyped hordered hfloats [] (fun _ _ h => by cases h)
    exact ⟨output, s, t, rfl, hagain, hstore⟩

/-- How a run fails when it is done again, after it has succeeded. -/
def failureAgain (files : BuildFiles) (input : Input) (store : Store) : Option Failure :=
  match generateFromTree files input { store } with
  | .error _ _ => none
  | .ok _ s =>
    match generateFromTree files input { store := s.store } with
    | .error failure _ => some failure
    | .ok _ _ => none

/-- Three reasons for which a run fails when it is done again: the file of the flags may be one that can be created but
not read; a flag for integers whose default is a truth value is remembered by a text that is no integer; and a flag that
a factory has registered is missing when the value that the factory gave is remembered. -/
theorem second_run_may_fail :
    failureAgain (reportFiles [{ flag := levelFlag }]) (reportInput [])
        { reportTree with refuses := fun access place => access = .read && place = ["out", "FLAGS.json"] } =
      some (.of (.flagsUnusable "/out/FLAGS.json" (.unreadable { code := .denied, path := "/out/FLAGS.json" }))) ∧
    failureAgain (reportFiles [{ flag := { levelFlag with default := some (.bool true) } }]) (reportInput []) reportTree =
      some (.of (.invalidInteger "True" "level" .malformed)) ∧
    failureAgain (reportFiles [sizeSource]) (reportInput []) reportTree =
      some (.build { cause := .notRegistered "level", target := some "report" }) := by
  decide +kernel

end BuildPlan
