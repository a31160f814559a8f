import BuildPlan.Flag.Memory
import BuildPlan.Proofs.Json.RoundTrip
import BuildPlan.Proofs.State.Zoom
import BuildPlan.Proofs.Store.Payloads

/-!
# The file of flag values

The operations of `Settings` are those of a registry or of a store. What has been saved in a file is loaded from it
again. A store that holds the values of a run gives them back to the next one, which leaves the file as it is when it
writes the same values again.
-/

namespace BuildPlan

variable {α : Type} {w : Workspace} {values remembered : Assoc String String} {s t : Store}

theorem Settings.onRegistry_eq (operation : RegistryM α) :
    onRegistry operation = zoom Settings.registry (fun s registry => { s with registry }) operation := by
  funext s
  unfold onRegistry zoom
  cases operation s.registry <;> rfl

theorem Settings.onRegistry_eq_ok_iff {operation : RegistryM α} {settings settings' : Settings} {a : α} :
    Settings.onRegistry operation settings = .ok a settings' ↔
      ∃ registry, operation settings.registry = .ok a registry ∧ settings' = { settings with registry } := by
  rw [Settings.onRegistry_eq, zoom_eq_ok_iff]

theorem Settings.onStore_eq_ok_iff {operation : Store → Except Failure α × Store} {settings settings' : Settings}
    {a : α} :
    Settings.onStore operation settings = .ok a settings' ↔
      ∃ store, operation settings.store = (.ok a, store) ∧ settings' = { settings with store } := by
  unfold Settings.onStore
  rcases operation settings.store with ⟨e | b, store⟩
  · refine iff_of_false nofun ?_
    rintro ⟨_, h, -⟩
    cases h
  · constructor
    · intro h
      cases h
      exact ⟨store, rfl, rfl⟩
    · rintro ⟨_, h, rfl⟩
      cases h
      rfl

theorem Settings.onStore_eq_error_iff {operation : Store → Except Failure α × Store} {settings settings' : Settings}
    {e : Failure} :
    Settings.onStore operation settings = .error e settings' ↔
      ∃ store, operation settings.store = (.error e, store) ∧ settings' = { settings with store } := by
  unfold Settings.onStore
  rcases operation settings.store with ⟨e' | b, store⟩
  · constructor
    · intro h
      cases h
      exact ⟨store, rfl, rfl⟩
    · rintro ⟨_, h, rfl⟩
      cases h
      rfl
  · refine iff_of_false nofun ?_
    rintro ⟨_, h, -⟩
    cases h

/-- The files after values have been remembered, if it is said where. -/
def remember (file : Option String) (values : Assoc String String) (store : Store) : Except Failure Unit × Store :=
  file.elim (.ok (), store) (saveFlags store · values)

@[simp] theorem remember_none (values : Assoc String String) (store : Store) :
    remember none values store = (.ok (), store) := by
  rw [remember, Option.elim_none]

@[simp] theorem remember_some (path : String) (values : Assoc String String) (store : Store) :
    remember (some path) values store = saveFlags store path values := by
  rw [remember, Option.elim_some]

namespace Settings

variable {settings settings' : Settings}

theorem lock_of_locked {locked : LockedFlags} (h : settings.registry.locked = some locked) (file : Option String) :
    lock file settings = .ok locked settings := by
  refine bind_eq_ok_iff.mpr ⟨settings, settings, rfl, ?_⟩
  rw [h]
  rfl

/-- Locking an open registry settles it, remembers its values and keeps the outcome. -/
theorem lock_eq (hopen : settings.registry.locked = none) (file : Option String) :
    lock file settings = (do
      let locked ← onRegistry Registry.settle
      onStore (remember file locked.values)
      modify fun s => { s with registry := { s.registry with locked := some locked } }
      return locked : SettingsM LockedFlags) settings := by
  rcases settings with ⟨⟨⟩, _⟩
  cases hopen
  cases file with
  | none =>
    refine congrFun (bind_congr (x := onRegistry Registry.settle) fun locked => funext fun s => ?_) _
    have hstore : onStore (remember none locked.values) s = .ok () s := by
      rw [onStore, remember_none]
    change _ = EStateM.bind (onStore (remember none locked.values)) _ s
    rw [EStateM.bind, hstore]
  | some path =>
    refine congrFun (bind_congr (x := onRegistry Registry.settle) fun locked => ?_) _
    have hremember : remember (some path) locked.values = fun store => saveFlags store path locked.values :=
      funext fun _ => remember_some path locked.values _
    rw [hremember]

theorem lock_eq_ok_iff {file : Option String} {locked : LockedFlags} (hopen : settings.registry.locked = none) :
    lock file settings = .ok locked settings' ↔
      ∃ registry store, Registry.settle settings.registry = .ok locked registry ∧
        remember file locked.values settings.store = (.ok (), store) ∧
        settings' = { registry := { registry with locked := some locked }, store } := by
  rw [lock_eq hopen, bind_eq_ok_iff]
  constructor
  · rintro ⟨found, _, hfirst, h⟩
    obtain ⟨registry, hsettle, rfl⟩ := onRegistry_eq_ok_iff.mp hfirst
    obtain ⟨_, _, hsecond, hlast⟩ := bind_eq_ok_iff.mp h
    obtain ⟨store, hremember, rfl⟩ := onStore_eq_ok_iff.mp hsecond
    cases hlast
    exact ⟨registry, store, hsettle, hremember, rfl⟩
  · rintro ⟨registry, store, hsettle, hremember, rfl⟩
    refine ⟨locked, _, onRegistry_eq_ok_iff.mpr ⟨registry, hsettle, rfl⟩, ?_⟩
    exact bind_eq_ok_iff.mpr ⟨(), _, onStore_eq_ok_iff.mpr ⟨store, hremember, rfl⟩, rfl⟩

theorem lock_eq_error_iff {file : Option String} {e : Failure} (hopen : settings.registry.locked = none) :
    lock file settings = .error e settings' ↔
      (∃ registry, Registry.settle settings.registry = .error e registry ∧ settings' = { settings with registry }) ∨
      ∃ locked registry store, Registry.settle settings.registry = .ok locked registry ∧
        remember file locked.values settings.store = (.error e, store) ∧ settings' = { registry, store } := by
  rw [lock_eq hopen, bind_eq_error_iff, onRegistry_eq, zoom_eq_error_iff, ← onRegistry_eq]
  refine or_congr_right ⟨?_, ?_⟩
  · rintro ⟨locked, _, hfirst, h⟩
    obtain ⟨registry, hsettle, rfl⟩ := onRegistry_eq_ok_iff.mp hfirst
    obtain hsecond | ⟨_, _, -, hlast⟩ := bind_eq_error_iff.mp h
    · obtain ⟨store, hremember, rfl⟩ := onStore_eq_error_iff.mp hsecond
      exact ⟨locked, registry, store, hsettle, hremember, rfl⟩
    · cases hlast
  · rintro ⟨locked, registry, store, hsettle, hremember, rfl⟩
    refine ⟨locked, _, onRegistry_eq_ok_iff.mpr ⟨registry, hsettle, rfl⟩, ?_⟩
    exact bind_eq_error_iff.mpr (.inl (onStore_eq_error_iff.mpr ⟨store, hremember, rfl⟩))

end Settings

theorem flagsText_eq (values : Assoc String String) :
    flagsText values = (Json.object (Json.textFields (Text.sortOn (·.1) values))).pretty ++ "\n" := rfl

/-! ### Saving and loading -/

section file

variable {path : String}

theorem loadFlags_of_find? (hname : Store.checkName (tidyText path) = .ok ())
    (hreach : s.Reaches (locate (tidyText path))) {mode : Nat}
    (hfound : s.find? (locate (tidyText path)) = some (.file (flagsText values) mode))
    (hread : s.refuses .read (locate (tidyText path)) = false) :
    loadFlags s path = .ok (Assoc.ofList (Text.sortOn (·.1) values)) := by
  have hentry : s.hasEntry (tidyText path) = true := by
    rw [Store.hasEntry_eq hname hreach, hfound]
    rfl
  have htext : s.readText (tidyText path) = .ok (flagsText values) := by
    rw [Store.readText_eq hname hreach, hfound]
    simp only [hread]
    rfl
  unfold loadFlags
  simp only [hentry, htext, flagsText_eq, Json.read_pretty, Json.ofList_textFields, Json.stringMap?_textFields]
  rfl

theorem saveFlags_eq_ok_iff :
    saveFlags s path values = (.ok (), t) ↔ ∃ between,
      s.makeDirectories (Store.parentPath (tidyText path)) = .ok between ∧
      between.writeText (tidyText path) (flagsText values) = .ok t := by
  unfold saveFlags
  cases hmake : s.makeDirectories (Store.parentPath (tidyText path)) with
  | error e => simp [hmake]
  | ok between => cases hwrite : between.writeText (tidyText path) (flagsText values) <;> simp [hmake, hwrite]

theorem saveFlags_eq_error_iff {e : Failure} :
    saveFlags s path values = (.error e, t) ↔
      (∃ cause, s.makeDirectories (Store.parentPath (tidyText path)) = .error cause ∧
        e = .ofFile (.flagsUnwritable (tidyText path)) cause ∧ t = s) ∨
      ∃ cause, s.makeDirectories (Store.parentPath (tidyText path)) = .ok t ∧
        t.writeText (tidyText path) (flagsText values) = .error cause ∧
        e = .ofFile (.flagsUnwritable (tidyText path)) cause := by
  unfold saveFlags
  cases hmake : s.makeDirectories (Store.parentPath (tidyText path)) with
  | error cause => simp [hmake, eq_comm]
  | ok between =>
    cases hwrite : between.writeText (tidyText path) (flagsText values) with
    | error cause =>
      simp only [hmake, hwrite]
      constructor
      · intro h
        cases h
        exact .inr ⟨cause, rfl, hwrite, rfl⟩
      · rintro (⟨_, h, -⟩ | ⟨cause', h, hwrite', rfl⟩)
        · cases h
        · cases h
          cases hwrite.symm.trans hwrite'
          rfl
    | ok saved =>
      simp only [hmake, hwrite]
      refine iff_of_false nofun ?_
      rintro (⟨_, h, -⟩ | ⟨cause, h, hwrite', -⟩)
      · cases h
      · cases h
        cases hwrite.symm.trans hwrite'

/-- What has been saved is loaded again, if the file can be read. -/
theorem loadFlags_of_saveFlags (h : saveFlags s path values = (.ok (), t))
    (hread : t.refuses .read (locate (tidyText path)) = false) :
    loadFlags t path = .ok (Assoc.ofList (Text.sortOn (·.1) values)) := by
  obtain ⟨between, -, hwrite⟩ := saveFlags_eq_ok_iff.mp h
  obtain ⟨hname, hreach, mode, hfound⟩ := Store.found_of_writeText hwrite
  exact loadFlags_of_find? hname hreach hfound hread

end file

/-! ### The file of a workspace -/

/-- The file of flag values has these values, and can be read and written. -/
structure Store.HoldsFlags (w : Workspace) (values : Assoc String String) (s : Store) : Prop where
  name : Store.checkName (tidyText w.flagsFile) = .ok ()
  parentName : Store.checkName (Store.parentPath (tidyText w.flagsFile)) = .ok ()
  reaches : s.Reaches (locate (tidyText w.flagsFile))
  found : ∃ mode, s.find? (locate (tidyText w.flagsFile)) = some (.file (flagsText values) mode)
  read : s.refuses .read (locate (tidyText w.flagsFile)) = false
  write : s.refuses .write (locate (tidyText w.flagsFile)) = false

theorem Store.holdsFlags_put (hname : checkName (tidyText w.flagsFile) = .ok ())
    (hparent : checkName (parentPath (tidyText w.flagsFile)) = .ok ())
    (hreach : s.Reaches (locate (tidyText w.flagsFile)))
    (hread : s.refuses .read (locate (tidyText w.flagsFile)) = false)
    (hwrite : s.refuses .write (locate (tidyText w.flagsFile)) = false) {mode : Nat} :
    s.Grows (s.put (locate (tidyText w.flagsFile)) (.file (flagsText values) mode)) ∧
      (s.put (locate (tidyText w.flagsFile)) (.file (flagsText values) mode)).HoldsFlags w values := by
  have hne : locate (tidyText w.flagsFile) ≠ [] := by
    rw [w.locate_flagsFile]
    exact List.concat_ne_nil _ _
  refine ⟨?_, hname, hparent, (SameBut.put hne s _).reaches (Nat.le_refl _) hreach, ⟨mode, ?_⟩, hread, hwrite⟩
  · rw [w.locate_flagsFile]
    exact grows_put_file (by decide)
  · rw [find?_put _ _ _ _ hne, if_pos rfl]

namespace Store.HoldsFlags

theorem loadFlags (h : s.HoldsFlags w values) :
    BuildPlan.loadFlags s w.flagsFile = .ok (Assoc.ofList (Text.sortOn (·.1) values)) := by
  obtain ⟨mode, hfound⟩ := h.found
  exact loadFlags_of_find? h.name h.reaches hfound h.read

theorem find?_outputRoot (h : s.HoldsFlags w values) :
    s.Reaches (locate w.outputRoot) ∧ s.find? (locate w.outputRoot) = some .directory := by
  have hreach := h.reaches
  rwa [w.locate_flagsFile, reaches_concat_iff] at hreach

theorem saveFlags (h : s.HoldsFlags w values) : BuildPlan.saveFlags s w.flagsFile values = (.ok (), s) := by
  obtain ⟨mode, hfound⟩ := h.found
  have hmake : s.makeDirectories (parentPath (tidyText w.flagsFile)) = .ok s := by
    refine makeDirectories_of_directory h.parentName ?_
    rw [Workspace.flagsFile, locate_parentPath isName_flags]
    exact h.find?_outputRoot.2
  have hwrite : s.writeText (tidyText w.flagsFile) (flagsText values) = .ok s := by
    rw [writeText_eq h.name h.reaches, hfound]
    simp only [h.write]
    rw [put_eq_self hfound]
    rfl
  unfold BuildPlan.saveFlags
  simp only [hmake, hwrite]

theorem reaches_dataPlace (h : s.HoldsFlags w values) : s.Reaches w.dataPlace := by
  rw [w.dataPlace_eq]
  exact reaches_concat_iff.mpr h.find?_outputRoot

theorem of_becomes (h : s.HoldsFlags w values) (hbecomes : s.Becomes w.dataPlace t) : t.HoldsFlags w values := by
  obtain ⟨mode, hfound⟩ := h.found
  refine ⟨h.name, h.parentName, hbecomes.reaches h.reaches, ⟨mode, ?_⟩, ?_, ?_⟩
  · have hturn := hbecomes.turns (locate (tidyText w.flagsFile))
    rw [hfound] at hturn
    generalize t.find? (locate (tidyText w.flagsFile)) = found at hturn ⊢
    cases hturn with
    | same => rfl
    | rewritten hplace =>
      obtain ⟨name, hplace⟩ := hplace
      rw [w.locate_flagsFile, w.dataPlace_eq] at hplace
      have hlength := congrArg List.length hplace
      simp at hlength
  · rw [hbecomes.refuses]
    exact h.read
  · rw [hbecomes.refuses]
    exact h.write

end Store.HoldsFlags

/-- A file of flag values that was there has been read. -/
theorem read_of_loadFlags (h : loadFlags s w.flagsFile = .ok remembered)
    (hname : Store.checkName (tidyText w.flagsFile) = .ok ())
    (hreach : s.Reaches (locate (tidyText w.flagsFile)))
    {text : String} {mode : Nat} (hfound : s.find? (locate (tidyText w.flagsFile)) = some (.file text mode)) :
    s.refuses .read (locate (tidyText w.flagsFile)) = false := by
  by_contra hrefuses
  have hentry : s.hasEntry (tidyText w.flagsFile) = true := by
    rw [Store.hasEntry_eq hname hreach, hfound]
    rfl
  have htext : s.readText (tidyText w.flagsFile) = Store.failAt .denied (tidyText w.flagsFile) := by
    rw [Store.readText_eq hname hreach, hfound]
    simp only [Bool.not_eq_false _ ▸ hrefuses]
    rfl
  unfold loadFlags at h
  simp only [hentry, htext] at h
  cases h

/-- **A run that has read and written its flags leaves a store that holds them**, and no package comes or goes. -/
theorem saveFlags_ok (hwellFormed : s.WellFormed) (howns : s.OwnsWhatItMakes)
    (hload : loadFlags s w.flagsFile = .ok remembered) (h : saveFlags s w.flagsFile values = (.ok (), t)) :
    s.Grows t ∧ t.HoldsFlags w values := by
  obtain ⟨between, hmake, hwrite⟩ := saveFlags_eq_ok_iff.mp h
  obtain ⟨hparent, hgrows, hfiles⟩ := Store.makeDirectories_ok hmake
  obtain ⟨hname, hreach, hcases⟩ := Store.writeText_ok hwrite
  rcases hcases with ⟨-, hcreate, rfl⟩ | ⟨old, mode, hfound, hallowed, rfl⟩
  · rw [hgrows.refuses] at hcreate
    obtain ⟨hread, hallowed⟩ := howns _ hcreate
    rw [← hgrows.refuses] at hread hallowed
    obtain ⟨hput, hholds⟩ := Store.holdsFlags_put hname hparent hreach hread hallowed
    exact ⟨Store.Grows.lasting.trans hgrows hput, hholds⟩
  · -- the file was there before, so it has been read
    have hfound' := hfiles.mp hfound
    have hreach' := hwellFormed _ (Option.isSome_of_eq_some hfound')
    have hread := read_of_loadFlags hload hname hreach' hfound'
    rw [← hgrows.refuses] at hread
    obtain ⟨hput, hholds⟩ := Store.holdsFlags_put hname hparent hreach hread hallowed
    exact ⟨Store.Grows.lasting.trans hgrows hput, hholds⟩

end BuildPlan
