import BuildPlan.Proofs.Flag.Cached
import BuildPlan.Proofs.Store.Directories

/-!
# Locking that fails

A lock that fails leaves the registry open with its flags, and all files as they are; what stays are flags that factories
have registered, values that the registry has found out, and directories that have been made for the file. If factories
are constant, there are no such flags (`Settings.Retried`), and whatever is asked afterwards is answered as if the lock
had not been tried, but for a lock whose file is to come where one of the directories is (`Settings.lock_failed`).
-/

namespace BuildPlan

variable {pool : List Flag} {outcomes : Outcomes} {made : Location → Prop} {values : Assoc String String} {path : String}

/-! ### Files of values -/

section store

variable {s t : Store}

theorem Store.Ahead.saveFlags (h : Ahead made s t) (hfree : ¬ made (locate (tidyText path)))
    (values : Assoc String String) :
    (BuildPlan.saveFlags t path values).1 = (BuildPlan.saveFlags s path values).1 ∧
      Ahead made (BuildPlan.saveFlags s path values).2 (BuildPlan.saveFlags t path values).2 := by
  rcases h.makeDirectories (parentPath (tidyText path)) with ⟨cause, hs, ht⟩ | ⟨s', t', hs, ht, hmakes, hahead⟩
  · rw [saveFlags_eq_error_iff.mpr (.inl ⟨cause, hs, rfl, rfl⟩), saveFlags_eq_error_iff.mpr (.inl ⟨cause, ht, rfl, rfl⟩)]
    exact ⟨rfl, h⟩
  · rcases hahead.writeText hmakes.reaches hfree with ⟨cause, hs', ht'⟩ | ⟨s'', t'', hs', ht', hahead'⟩
    · rw [saveFlags_eq_error_iff.mpr (.inr ⟨cause, hs, hs', rfl⟩), saveFlags_eq_error_iff.mpr (.inr ⟨cause, ht, ht', rfl⟩)]
      exact ⟨rfl, hahead⟩
    · rw [saveFlags_eq_ok_iff.mpr ⟨s', hs, hs'⟩, saveFlags_eq_ok_iff.mpr ⟨t', ht, ht'⟩]
      exact ⟨rfl, hahead'⟩

theorem Store.Ahead.remember {file : Option String} (h : Ahead made s t)
    (hfree : ∀ path, file = some path → ¬ made (locate (tidyText path))) (values : Assoc String String) :
    (BuildPlan.remember file values t).1 = (BuildPlan.remember file values s).1 ∧
      Ahead made (BuildPlan.remember file values s).2 (BuildPlan.remember file values t).2 := by
  cases file with
  | none =>
    rw [remember_none, remember_none]
    exact ⟨rfl, h⟩
  | some path =>
    rw [remember_some, remember_some]
    exact h.saveFlags (hfree path rfl) values

theorem Store.Ahead.loadFlags (h : Ahead made s t) (hfree : ¬ made (locate (tidyText path))) :
    BuildPlan.loadFlags t path = BuildPlan.loadFlags s path := by
  unfold BuildPlan.loadFlags
  simp only [h.hasEntry hfree]
  by_cases hentry : s.hasEntry (tidyText path) = true
  · simp only [h.readText hfree hentry]
  · simp only [hentry, Bool.not_false, if_true]

/-- The place is one above a file of values, if there is to be one. -/
def AboveFile (file : Option String) (place : Location) : Prop :=
  ∃ path, file = some path ∧ place <+: locate (Store.parentPath (tidyText path))

/-- Values that cannot be remembered leave all files as they are; there may be directories more above their file. -/
theorem ahead_of_remember {file : Option String} {e : Failure} (hs : s.WellFormed)
    (h : remember file values s = (.error e, t)) :
    Store.Ahead (fun place => AboveFile file place ∧ t.find? place ≠ s.find? place) s t := by
  cases file with
  | none =>
    rw [remember_none] at h
    cases h
  | some path =>
    rw [remember_some] at h
    rcases saveFlags_eq_error_iff.mp h with ⟨_, -, -, rfl⟩ | ⟨_, hmake, -, -⟩
    · exact .refl _ hs
    · exact ((Store.makes_of_makeDirectories hs hmake).ahead hs).mono fun place hplace =>
        ⟨⟨path, rfl, hplace.1⟩, hplace.2⟩

end store

/-! ### Requests -/

/-- A request mentions only definitions of the pool, and saves no values where a directory has been made. -/
structure FlagRequest.Spares (pool : List Flag) (made : Location → Prop) (request : FlagRequest) : Prop where
  mentioned : ∀ flag ∈ request.mentioned, flag ∈ pool
  file : ∀ path, request = .lock (some path) → ¬ made (locate (tidyText path))

namespace Settings

open Registry

variable {s t : Settings} {requests others : List FlagRequest}

/-- The second settings have some values and some directories already, as a lock that has failed leaves them. -/
structure Retried (pool : List Flag) (outcomes : Outcomes) (made : Location → Prop) (s t : Settings) : Prop where
  registry : s.registry.Cached pool outcomes t.registry
  store : s.store.Ahead made t.store

theorem inStep_onRegistry {α : Type} {operation : RegistryM α} (h : InStep (.related (Cached pool outcomes)) operation) :
    InStep (.related (Retried pool outcomes made)) (onRegistry operation) := by
  rw [onRegistry_eq]
  exact h.zoom_related Retried.registry fun hmeets hregistry => ⟨hregistry, hmeets.store⟩

theorem inStep_remember {file : Option String} (hfree : ∀ path, file = some path → ¬ made (locate (tidyText path)))
    (values : Assoc String String) : InStep (.related (Retried pool outcomes made)) (onStore (remember file values)) := by
  refine inStep_related_iff.mpr fun {s t} h => ?_
  obtain ⟨hresult, hahead⟩ := h.store.remember hfree values
  unfold answer endState onStore
  rcases hs : remember file values s.store with ⟨result, files⟩
  rcases ht : remember file values t.store with ⟨result', files'⟩
  rw [hs, ht] at hresult hahead
  obtain rfl : result' = result := hresult
  cases result' <;> exact ⟨rfl, h.registry, hahead⟩

theorem inStep_lock (hnames : ∀ a ∈ pool, ∀ b ∈ pool, a.name = b.name → a = b) {file : Option String}
    (hfree : ∀ path, file = some path → ¬ made (locate (tidyText path))) :
    InStep (.related (Retried pool outcomes made)) (lock file) := by
  refine inStep_related_iff.mpr fun {s t} h => ?_
  have hlocked := h.registry.locked
  cases hopen : s.registry.locked with
  | some locked => exact related_of_ok (lock_of_locked hopen file) (lock_of_locked (hlocked.trans hopen) file) h
  | none =>
    unfold answer endState
    rw [lock_eq hopen, lock_eq (hlocked.trans hopen)]
    refine inStep_related_iff.mp ((inStep_onRegistry (Cached.inStep_settle hnames)).bind fun locked => ?_) h
    refine (inStep_remember hfree locked.values).bind fun _ => ?_
    refine (InStep.modify (fun _ => trivial) fun {s t} h => ?_).bind fun _ => .pure locked
    obtain ⟨hregistry, hstore⟩ : Retried pool outcomes made s t := h
    exact ⟨{ hregistry with locked := rfl }, hstore⟩

theorem inStep_serve (hnames : ∀ a ∈ pool, ∀ b ∈ pool, a.name = b.name → a = b) {request : FlagRequest}
    (hrequest : request.Spares pool made) : InStep (.related (Retried pool outcomes made)) request.serve := by
  cases request with
  | register flag =>
    exact (inStep_onRegistry (Cached.inStep_register (hrequest.mentioned flag List.mem_cons_self))).bind fun _ => .pure _
  | value reference =>
    exact (inStep_onRegistry (Cached.inStep_read hnames hrequest.mentioned)).bind fun _ => .pure _
  | info => exact (inStep_onRegistry (Cached.inStep_info hnames)).bind fun _ => .pure _
  | lock file =>
    exact (inStep_lock hnames fun path hpath => hrequest.file path (by rw [hpath])).bind fun _ => .pure _

/-- Any number of requests is answered the same. -/
theorem Retried.answers (h : Retried pool outcomes made s t) (hnames : ∀ a ∈ pool, ∀ b ∈ pool, a.name = b.name → a = b)
    (hrequests : ∀ request ∈ requests, request.Spares pool made) :
    t.answers requests = s.answers requests ∧ Retried pool outcomes made (s.serveAll requests) (t.serveAll requests) := by
  induction requests generalizing s t with
  | nil => exact ⟨rfl, h⟩
  | cons request rest ih =>
    obtain ⟨hrequest, hrest⟩ := List.forall_mem_cons.mp hrequests
    obtain ⟨hanswer, hstates⟩ := inStep_related_iff.mp (inStep_serve hnames hrequest) h
    obtain ⟨hanswers, hends⟩ := ih hstates hrest
    refine ⟨?_, hends⟩
    rw [Settings.answers, Settings.answers, hanswer, hanswers]

/-! ### A lock that has failed -/

theorem lock_open {file : Option String} {e : Failure} (h : lock file s = .error e t) :
    s.registry.locked = none := by
  cases hlocked : s.registry.locked with
  | none => rfl
  | some locked =>
    rw [lock_of_locked hlocked] at h
    cases h

/-- A lock that has failed has read flags, and has left all files as they are. -/
theorem of_lock_error {file : Option String} {e : Failure} (hstore : s.store.WellFormed) (h : lock file s = .error e t) :
    t.registry = endState settle s.registry ∧
      s.store.Ahead (fun place => AboveFile file place ∧ t.store.find? place ≠ s.store.find? place) t.store := by
  rcases (lock_eq_error_iff (lock_open h)).mp h with
    ⟨registry, hsettle, rfl⟩ | ⟨locked, registry, files, hsettle, hremember, rfl⟩
  · exact ⟨(endState_of_error hsettle).symm, .refl _ hstore⟩
  · exact ⟨(endState_of_ok hsettle).symm, ahead_of_remember hstore hremember⟩

theorem register_of_new {flag : Flag} (hopen : s.registry.locked = none)
    (hnew : Assoc.find? s.registry.flags flag.name = none) :
    ∃ t, (FlagRequest.register flag).serve s = .ok (.registered flag) t ∧
      Assoc.find? t.registry.flags flag.name = some flag := by
  have hregister : register flag s.registry =
      .ok () { s.registry with flags := Assoc.insert s.registry.flags flag.name flag } := by
    rw [register_eq, if_neg (by simp [hopen])]
    simp only [hnew]
  refine ⟨_, bind_eq_ok_iff.mpr ⟨(), _, onRegistry_eq_ok_iff.mpr ⟨_, hregister, rfl⟩, rfl⟩, ?_⟩
  rw [Assoc.find?_insert, if_pos rfl]

theorem exists_request_of_registered {commandLine remembered : Assoc String String}
    {factories : Assoc String FactoryBehavior} {start : Store} {outcomes : Outcomes}
    (hreached : s.registry = ((opened commandLine remembered factories start).serveAll requests).registry)
    (hconstant : s.registry.Constant outcomes) {name : String} {flag : Flag}
    (h : Assoc.find? s.registry.flags name = some flag) : ∃ request ∈ requests, flag ∈ request.mentioned := by
  have hsound := sound_serveAll (sound_opened commandLine remembered factories start) requests
  rw [hreached] at h hconstant
  have hknows : Registry.Knows _ (fun _ => False) flag := .inl ⟨name, h⟩
  rcases knows_serveAll hknows with ⟨_, hnever⟩ | hmentioned | hmentions
  · cases hnever
  · exact hmentioned.resolve_left id
  · exact absurd ((mentions_congr hsound.factories).mpr hmentions) (hconstant.not_mentions flag)

/-- **A lock that fails leaves nothing behind but directories, and flags that factories have registered.** The registry is
open, and takes new flags; if whatever the factories of its flags use is registered already, no flag has come in. No file
is made or changed. If factories are constant and each name is that of one definition, whatever is asked from then on is
answered as if the lock had not been tried, as long as no file of values is to come where the lock has made a directory. -/
theorem lock_failed {commandLine remembered : Assoc String String} {factories : Assoc String FactoryBehavior}
    {start : Store} {file : Option String} {e : Failure}
    (hreached : s.registry = ((opened commandLine remembered factories start).serveAll requests).registry)
    (hstore : s.store.WellFormed) (hlock : lock file s = .error e t) :
    let spared := fun path => t.store.find? (locate (tidyText path)) = s.store.find? (locate (tidyText path))
    t.registry.locked = none ∧ t.registry.hash = .error .hashBeforeLock ∧
    (∃ added, t.registry.flags = s.registry.flags ++ added ∧ ∀ entry ∈ added, s.registry.Mentions entry.2) ∧
    (s.registry.Closed → t.registry.flags = s.registry.flags) ∧
    (∀ flag, Assoc.find? t.registry.flags flag.name = none → ∃ u, (FlagRequest.register flag).serve t =
      .ok (.registered flag) u ∧ Assoc.find? u.registry.flags flag.name = some flag) ∧
    (∀ place, t.store.find? place = s.store.find? place ∨
      s.store.find? place = none ∧ t.store.find? place = some .directory ∧ AboveFile file place) ∧
    ∀ others outcomes, s.registry.Constant outcomes →
      (∀ a ∈ (requests ++ others).flatMap (·.mentioned), ∀ b ∈ (requests ++ others).flatMap (·.mentioned),
        a.name = b.name → a = b) →
      (∀ path, .lock (some path) ∈ others → spared path) →
      t.registry.flags = s.registry.flags ∧
      t.answers others = s.answers others ∧
      (t.serveAll others).registry.flags = (s.serveAll others).registry.flags ∧
      (t.serveAll others).registry.hash = (s.serveAll others).registry.hash ∧
      (∀ place text mode, (t.serveAll others).store.find? place = some (.file text mode) ↔
        (s.serveAll others).store.find? place = some (.file text mode)) ∧
      ∀ path, spared path → loadFlags (t.serveAll others).store path = loadFlags (s.serveAll others).store path := by
  intro spared
  have hsound := sound_serveAll (sound_opened commandLine remembered factories start) requests
  rw [← hreached] at hsound
  obtain ⟨hregistry, hahead⟩ := of_lock_error hstore hlock
  have hreads := reads_settle (fun _ => False) s.registry
  rw [← hregistry] at hreads
  have hopen : t.registry.locked = none := hreads.locked.trans (lock_open hlock)
  refine ⟨hopen, by rw [Registry.hash, hopen], ?_, fun hclosed => hreads.quiet hclosed fun _ => False.elim,
    fun flag => register_of_new hopen, fun place => ?_, fun others outcomes hconstant hnames hfree => ?_⟩
  · obtain ⟨added, hflags, hadded⟩ := hreads.enrolled
    exact ⟨added, hflags, fun entry hentry => (hadded entry hentry).resolve_left id⟩
  · rcases hahead.turns place with hsame | ⟨hmade, hnone, hdirectory, -⟩
    · exact .inl hsame
    · exact .inr ⟨hnone, hdirectory, hmade.1⟩
  · -- constant factories register nothing, so each flag is one that a request mentions
    have hpool : ∀ {name flag}, Assoc.find? s.registry.flags name = some flag →
        flag ∈ (requests ++ others).flatMap (·.mentioned) := by
      intro name flag hfound
      obtain ⟨request, hrequest, hflag⟩ := exists_request_of_registered hreached hconstant hfound
      exact List.mem_flatMap.mpr ⟨request, List.mem_append_left _ hrequest, hflag⟩
    have hcached := cached_settle hconstant hsound.named hpool
    rw [← hregistry] at hcached
    have hretried : Retried _ outcomes _ s t := ⟨hcached, hahead⟩
    obtain ⟨hanswers, hends⟩ := hretried.answers hnames fun request hrequest => {
      mentioned := fun flag hflag => List.mem_flatMap.mpr ⟨request, List.mem_append_right _ hrequest, hflag⟩
      file := by
        rintro path rfl
        exact fun hmade => hmade.2 (hfree path hrequest) }
    refine ⟨hcached.flags, hanswers, hends.registry.flags, ?_, fun place text mode => hends.store.file_iff,
      fun path hpath => ?_⟩
    · rw [Registry.hash, Registry.hash, hends.registry.locked]
    · exact hends.store.loadFlags fun hmade => hmade.2 hpath

theorem lock_failed_sample :
    let s : Settings :=
      { registry := ((opened [("level", "7")] [] choiceFactories {}).serveAll (choiceAndNumber.map .register)).registry }
    ∃ e t, lock (some "/a/b\x00") s = .error e t ∧ t.registry.hash = .error .hashBeforeLock ∧
      t.store.find? ["a"] = some .directory ∧
      t.answers [.value (.name "level"), .lock (some "/c")] = s.answers [.value (.name "level"), .lock (some "/c")] := by
  intro s
  have hfails : answer (lock (some "/a/b\x00")) s = .error (.fault (.value "embedded null byte")) := by decide +kernel
  have hplaces : (endState (lock (some "/a/b\x00")) s).store.find? ["a"] = some .directory ∧
      (endState (lock (some "/a/b\x00")) s).store.find? (locate (tidyText "/c")) =
        s.store.find? (locate (tidyText "/c")) := by
    decide +kernel
  obtain ⟨t, hlock⟩ := answer_eq_error_iff.mp hfails
  rw [endState_of_error hlock] at hplaces
  obtain ⟨-, hhash, -, -, -, -, hlater⟩ := lock_failed (s := s) rfl Store.wellFormed_empty hlock
  have hconstant : s.registry.Constant choiceOutcomes := constant_choiceOutcomes [("level", "7")]
  refine ⟨_, t, hlock, hhash, hplaces.1, (hlater _ choiceOutcomes hconstant (by decide) fun path hpath => ?_).2.1⟩
  obtain rfl : path = "/c" := by simpa using hpath
  exact hplaces.2

/-- A lock that cannot open its file has made the directories above it, so that a later lock finds a directory where it
would have put its own file. A lock that fails for want of a value has called a factory that has registered a flag. -/
theorem failed_lock_may_leave_something :
    (let s := opened [] [] [] {}
     answer (lock (some "/a/b\x00")) s = .error (.fault (.value "embedded null byte")) ∧
     answer (lock (some "/a")) s = .ok { hash := "00000000", info := [] } ∧
     answer (lock (some "/a")) (endState (lock (some "/a/b\x00")) s) =
       .error (.of (.flagsUnwritable "/a" { code := .isDirectory, path := "/a" }))) ∧
    let s := (opened [] [] exampleFactories {}).serveAll [.register earlyFlag, .register { kind := .int, name := "none" }]
    answer (lock none) s = .error (.of (.missingFlagValue "none")) ∧
    Assoc.keys s.registry.flags = ["early", "none"] ∧
    Assoc.keys (endState (lock none) s).registry.flags = ["early", "none", "late"] := by
  decide +kernel

end Settings

end BuildPlan
