import BuildPlan.Proofs.Flag.Replay

/-!
# Locked flags

A registry that is locked when all its flags have values is frozen: nothing that a build does changes its flags or
their values. Two frozen registries that look alike keep a build in step.
-/

namespace BuildPlan

namespace Registry

/-- The registry is locked, and all flags have values that can be written. -/
structure Frozen (r : Registry) : Prop where
  locked : r.locked.isSome
  complete : r.Complete

/-- What is known of factories stays, a locked registry keeps its flags, and a frozen one their values. -/
structure Stays (r s : Registry) : Prop where
  learned : ∀ {id behavior}, Assoc.find? r.factories id = some behavior → Assoc.find? s.factories id = some behavior
  locked : r.locked.isSome → s.locked.isSome
  flags : r.locked.isSome → s.flags = r.flags
  values : r.Frozen → s.values = r.values

theorem Stays.frozen {r s : Registry} (h : Stays r s) (hr : r.Frozen) : s.Frozen where
  locked := h.locked hr.locked
  complete hflag := by
    rw [h.flags hr.locked] at hflag
    rw [h.values hr]
    exact hr.complete hflag

theorem Stays.lasting : Lasting Stays where
  refl _ := ⟨id, id, fun _ => rfl, fun _ => rfl⟩
  trans hrs hst := ⟨fun hlearned => hst.learned (hrs.learned hlearned), fun h => hst.locked (hrs.locked h),
    fun h => (hst.flags (hrs.locked h)).trans (hrs.flags h),
    fun h => (hst.values (hrs.frozen h)).trans (hrs.values h)⟩

theorem Stays.covers {r s : Registry} (h : Stays r s) (hr : r.locked.isSome) : Covers r s where
  flags hflag := by rwa [h.flags hr]
  learned := h.learned

/-- The flags of two frozen registries have values that look the same. -/
structure LooksLike (r r' : Registry) : Prop where
  frozen : r.Frozen
  locked' : r'.locked.isSome
  flags : r'.flags = r.flags
  values : ∀ {name flag}, Assoc.find? r.flags name = some flag →
    ∃ value value', Assoc.find? r.values flag.name = some value ∧ Assoc.find? r'.values flag.name = some value' ∧
      flag.Alike value value'

/-- The registries of two builds, both of which are frozen from the start. -/
def frozen : Pace Registry where
  Meets := LooksLike
  Grows := Stays
  lasting := Stays.lasting
  Leads _ := True
  leads_of_grows _ _ := trivial
  Fails _ := True
  leads_of_fails _ := trivial

/-- A registry that has been replayed looks like the first one, once both are complete and locked. -/
theorem Replays.looksLike {texts : Assoc String String} {r r' : Registry} (h : Replays texts r r')
    (hcomplete : r.Complete) (hcomplete' : r'.Complete) (locked : LockedFlags) :
    LooksLike { r with locked := some locked } { r' with locked := some locked } where
  frozen := ⟨rfl, hcomplete⟩
  locked' := rfl
  flags := h.flags
  values {name flag} hflag := by
    obtain ⟨value', hvalue', -⟩ := hcomplete' (by rwa [h.flags])
    obtain ⟨flag', value, hflag', hvalue, halike⟩ := h.values hvalue'
    rw [h.named hflag, hflag] at hflag'
    cases hflag'
    exact ⟨value, value', hvalue, hvalue', halike⟩

/-! ### Reading -/

theorem read_of_known {name : String} {flag : Flag} {value : FlagValue} {r : Registry}
    (hflag : Assoc.find? r.flags name = some flag) (hvalue : Assoc.find? r.values flag.name = some value) :
    read (.name name) r = .ok value r := by
  rw [read_of_registered hflag, valueBy_of_known hvalue]

theorem Frozen.read {r : Registry} (hr : r.Frozen) (name : String) : endState (read (.name name)) r = r := by
  cases hflag : Assoc.find? r.flags name with
  | none => exact endState_of_error (read_of_unknown hflag)
  | some flag =>
    obtain ⟨value, hvalue, -⟩ := hr.complete hflag
    exact endState_of_ok (read_of_known hflag hvalue)

theorem Reads.stays {asked : Flag → Prop} {r s : Registry} (h : Reads asked r s) (hfrozen : r.Frozen → s = r) :
    Stays r s where
  learned := h.learned
  locked hr := by rwa [h.locked]
  flags := h.late
  values hr := by rw [hfrozen hr]

theorem stays_read (name : String) : Keeps Stays (read (.name name)) := fun r =>
  (reads_read (.name name) r).stays fun hr => hr.read name

theorem inStep_discard_read_frozen (name : String) : InStep frozen (discard (read (.name name))) where
  keeps := (stays_read name).map Stays.lasting _
  ok {r r' s a} hmeets h _ := by
    obtain ⟨value, hread⟩ := discard_eq_ok_iff.mp h
    cases hflag : Assoc.find? r.flags name with
    | none =>
      rw [read_of_unknown hflag] at hread
      cases hread
    | some flag =>
      obtain ⟨known, value', hknown, hvalue', -⟩ := hmeets.values hflag
      rw [read_of_known hflag hknown] at hread
      cases hread
      have hflag' : Assoc.find? r'.flags name = some flag := by rw [hmeets.flags, hflag]
      exact ⟨r', discard_eq_ok_iff.mpr ⟨value', read_of_known hflag' hvalue'⟩, hmeets⟩
  error {r r' s e} hmeets h _ := by
    have hread := discard_eq_error_iff.mp h
    cases hflag : Assoc.find? r.flags name with
    | none =>
      have hflag' : Assoc.find? r'.flags name = none := by rw [hmeets.flags, hflag]
      rw [read_of_unknown hflag] at hread
      cases hread
      exact ⟨r', discard_eq_error_iff.mpr (read_of_unknown hflag'), hmeets⟩
    | some flag =>
      obtain ⟨known, -, hknown, -⟩ := hmeets.values hflag
      rw [read_of_known hflag hknown] at hread
      cases hread

/-! ### Texts -/

theorem flagText_of_known {name : String} {flag : Flag} {value : FlagValue} {r : Registry}
    (hflag : Assoc.find? r.flags name = some flag) (hvalue : Assoc.find? r.values flag.name = some value)
    (hshort : flag.isTooLong value = false) : flagText name r = .ok (flag.format value) r := by
  have hlengths := checkLengths_of_short (List.forall_mem_singleton.mpr hshort) r
  exact flagText_of_read (read_of_known hflag hvalue) hflag hlengths

theorem flagText_of_unknown {name : String} {r : Registry} (h : Assoc.find? r.flags name = none) :
    flagText name r = .error (.of (.notRegistered name)) r :=
  bind_eq_error_iff.mpr (.inl (read_of_unknown h))

theorem inStep_flagText_frozen (name : String) : InStep frozen (flagText name) where
  keeps r := (reads_flagText name r).stays fun hr => by
    cases hflag : Assoc.find? r.flags name with
    | none => exact endState_of_error (flagText_of_unknown hflag)
    | some flag =>
      obtain ⟨value, hvalue, hshort⟩ := hr.complete hflag
      exact endState_of_ok (flagText_of_known hflag hvalue hshort)
  ok {r r' s a} hmeets h _ := by
    cases hflag : Assoc.find? r.flags name with
    | none =>
      rw [flagText_of_unknown hflag] at h
      cases h
    | some flag =>
      obtain ⟨value, hvalue, hshort⟩ := hmeets.frozen.complete hflag
      obtain ⟨known, value', hknown, hvalue', halike⟩ := hmeets.values hflag
      cases hvalue.symm.trans hknown
      have hflag' : Assoc.find? r'.flags name = some flag := by rw [hmeets.flags, hflag]
      rw [flagText_of_known hflag hvalue hshort] at h
      cases h
      rw [halike.isTooLong] at hshort
      exact ⟨r', by rw [flagText_of_known hflag' hvalue' hshort, halike.format], hmeets⟩
  error {r r' s e} hmeets h _ := by
    cases hflag : Assoc.find? r.flags name with
    | none =>
      have hflag' : Assoc.find? r'.flags name = none := by rw [hmeets.flags, hflag]
      rw [flagText_of_unknown hflag] at h
      cases h
      exact ⟨r', flagText_of_unknown hflag', hmeets⟩
    | some flag =>
      obtain ⟨value, hvalue, hshort⟩ := hmeets.frozen.complete hflag
      rw [flagText_of_known hflag hvalue hshort] at h
      cases h

/-! ### Registering too late -/

theorem register_of_locked (source : FlagSource) {r : Registry} (h : r.locked.isSome) :
    (do register (← adopt source) : RegistryM Unit) r =
      .error (.of (.registeredAfterLock source.flag.name)) (r.learn source) := by
  refine bind_eq_error_iff.mpr (.inr ⟨source.flag, r.learn source, rfl, ?_⟩)
  obtain ⟨factories, hlearn⟩ := learn_eq r source
  rw [register_eq, if_pos]
  rw [hlearn]
  exact h

theorem inStep_register_frozen (source : FlagSource) :
    InStep frozen (do register (← adopt source) : RegistryM Unit) where
  keeps r := by
    obtain ⟨factories, hlearn⟩ := learn_eq r source
    have hgrows := (keeps_adopt source).bind Grows.lasting (fun flag => keeps_register flag) r
    have hstate : r.locked.isSome → endState (do register (← adopt source) : RegistryM Unit) r = { r with factories } :=
      fun hr => by rw [endState_of_error (register_of_locked source hr), hlearn]
    refine ⟨hgrows.learned, fun hr => ?_, fun hr => by rw [hstate hr], fun hr => by rw [hstate hr.locked]⟩
    rwa [hstate hr]
  ok {r r' s a} hmeets h _ := by
    rw [register_of_locked source hmeets.frozen.locked] at h
    cases h
  error {r r' s e} hmeets h _ := by
    rw [register_of_locked source hmeets.frozen.locked] at h
    cases h
    obtain ⟨factories, hlearn⟩ := learn_eq r source
    obtain ⟨factories', hlearn'⟩ := learn_eq r' source
    refine ⟨r'.learn source, register_of_locked source hmeets.locked', ?_⟩
    show LooksLike (r.learn source) (r'.learn source)
    rw [hlearn, hlearn']
    exact ⟨⟨hmeets.frozen.locked, hmeets.frozen.complete⟩, hmeets.locked', hmeets.flags, hmeets.values⟩

end Registry

end BuildPlan
