import BuildPlan.Proofs.Flag.Reading
import BuildPlan.Proofs.Flag.RoundTrip

/-!
# What is recorded of flags

A description of all flags has an entry for each of their names. `Registry.Shows` says that a registry has the flag of
an entry with the value that the entry shows. What has once been shown is shown for ever, and settling a registry
records nothing else.
-/

namespace BuildPlan

/-- What is recorded of the flag when it has a value. -/
def Flag.infoOf (flag : Flag) (value : FlagValue) : FlagInfo :=
  ⟨flag.description, flag.kind.name, flag.allowedTexts, flag.format value⟩

namespace Registry

variable {r s t : Registry} {name : String} {flag : Flag} {value : FlagValue} {depth : Nat} {inner : Access}

theorem keeps_get {R : Registry → Registry → Prop} (hR : Lasting R) : Keeps R (get : RegistryM Registry) := hR.refl

theorem keeps_adopt (source : FlagSource) : Keeps Grows (adopt source) := by
  intro r
  show Grows r (r.learn source)
  unfold learn
  cases source.flag.factory with
  | none => exact Grows.lasting.refl r
  | some factory =>
    by_cases hknown : Assoc.contains r.factories factory = true
    · simp only [hknown, if_true]
      exact Grows.lasting.refl r
    · simp only [if_neg hknown]
      refine { Grows.lasting.refl r with learned := fun {id behavior} hlearned => ?_ }
      rw [Assoc.find?_insert, if_neg, hlearned]
      rintro rfl
      exact hknown (Option.isSome_of_eq_some hlearned)

/-! ### Checks -/

theorem keeps_checkLengths {R : Registry → Registry → Prop} (hR : Lasting R) (flag : Flag) (values : List FlagValue) :
    Keeps R (checkLengths flag values) := by
  unfold checkLengths
  split
  · exact .throw hR _
  · exact .pure hR _

theorem checkLengths_ok {values : List FlagValue} (h : checkLengths flag values r = .ok () s) :
    s = r ∧ ∀ value ∈ values, flag.isTooLong value = false := by
  unfold checkLengths at h
  by_cases hany : values.any flag.isTooLong = true
  · rw [if_pos hany] at h
    cases h
  · rw [if_neg hany] at h
    cases h
    simpa using hany

theorem checkLengths_of_short {values : List FlagValue} (h : ∀ value ∈ values, flag.isTooLong value = false)
    (r : Registry) : checkLengths flag values r = .ok () r := by
  rw [checkLengths, if_neg (by simpa using h)]
  rfl

/-! ### Entries -/

/-- The registry has the flag that an entry is about, with the value that the entry shows, and all that the entry shows
can be written. -/
def Shows (r : Registry) (entry : String × FlagInfo) : Prop :=
  ∃ flag value, Assoc.find? r.flags entry.1 = some flag ∧ Assoc.find? r.values entry.1 = some value ∧
    entry.2 = flag.infoOf value ∧ (∀ other ∈ flag.allowed, flag.isTooLong other = false) ∧
    flag.isTooLong value = false

theorem Shows.mono {entry : String × FlagInfo} (h : r.Shows entry)
    (hflags : ∀ {name flag}, Assoc.find? r.flags name = some flag → Assoc.find? s.flags name = some flag)
    (hvalues : ∀ {name value}, Assoc.find? r.values name = some value → Assoc.find? s.values name = some value) :
    s.Shows entry := by
  obtain ⟨flag, value, hflag, hvalue, hshown⟩ := h
  exact ⟨flag, value, hflags hflag, hvalues hvalue, hshown⟩

theorem infoFor_ok {entry : String × FlagInfo} (hnamed : r.Named)
    (h : infoFor (access depth) name r = .ok entry s) : entry.1 = name ∧ s.Shows entry := by
  have hreads := ((reads_access depth).infoFor (fun _ => False) name).ok h
  obtain ⟨_, _, hget, h⟩ := bind_eq_ok_iff.mp h
  cases hget
  cases hflag : Assoc.find? r.flags name with
  | none =>
    rw [hflag] at h
    cases h
  | some flag =>
    rw [hflag] at h
    obtain ⟨_, t, hallowed, h₁⟩ := bind_eq_ok_iff.mp h
    obtain ⟨rfl, hshown⟩ := checkLengths_ok hallowed
    obtain ⟨value, u, hvalue, h₂⟩ := bind_eq_ok_iff.mp h₁
    obtain ⟨_, v, hlength, h₃⟩ := bind_eq_ok_iff.mp h₂
    obtain ⟨rfl, hshort⟩ := checkLengths_ok hlength
    cases h₃
    obtain rfl := hnamed hflag
    exact ⟨rfl, flag, value, hreads.flags hflag, valueBy_ok hvalue, rfl, hshown, hshort value List.mem_cons_self⟩

theorem infoFor_of_shows {entry : String × FlagInfo} (hnamed : r.Named) (h : r.Shows entry) :
    infoFor inner entry.1 r = .ok entry r := by
  obtain ⟨flag, value, hflag, hvalue, hentry, hshown, hshort⟩ := h
  have hname : flag.name = entry.1 := hnamed hflag
  refine bind_eq_ok_iff.mpr ⟨r, r, rfl, ?_⟩
  rw [hflag]
  refine bind_eq_ok_iff.mpr ⟨(), r, checkLengths_of_short hshown r, ?_⟩
  refine bind_eq_ok_iff.mpr ⟨value, r, valueBy_of_known (hname ▸ hvalue), ?_⟩
  have hlength := checkLengths_of_short (List.forall_mem_singleton.mpr hshort) r
  refine bind_eq_ok_iff.mpr ⟨(), r, hlength, ?_⟩
  show EStateM.Result.ok (entry.1, flag.infoOf value) r = _
  rw [← hentry]

theorem mapM_infoFor_ok {names : List String} {entries : Assoc String FlagInfo} (hnamed : r.Named)
    (h : names.mapM (infoFor (access depth)) r = .ok entries s) :
    Assoc.keys entries = names ∧ ∀ entry ∈ entries, s.Shows entry := by
  induction names generalizing r entries with
  | nil =>
    cases h
    exact ⟨rfl, List.forall_mem_nil _⟩
  | cons name rest ih =>
    rw [List.mapM_cons] at h
    obtain ⟨entry, t, hfirst, h⟩ := bind_eq_ok_iff.mp h
    obtain ⟨more, u, hrest, h⟩ := bind_eq_ok_iff.mp h
    cases h
    obtain ⟨rfl, hentry⟩ := infoFor_ok hnamed hfirst
    have hreads := ((reads_access depth).infoFor (fun _ => False) entry.1).ok hfirst
    have hlater : Reads (fun _ => False) t s :=
      (Keeps.mapM (Reads.lasting _) fun name _ => (reads_access depth).infoFor _ name).ok hrest
    obtain ⟨hkeys, hmore⟩ := ih (hreads.named hnamed) hrest
    refine ⟨congrArg (entry.1 :: ·) hkeys, List.forall_mem_cons.mpr ⟨?_, hmore⟩⟩
    exact hentry.mono hlater.flags hlater.values

theorem mapM_infoFor_of_shows {entries : Assoc String FlagInfo} (hnamed : r.Named) (h : ∀ entry ∈ entries, r.Shows entry) :
    (Assoc.keys entries).mapM (infoFor inner) r = .ok entries r := by
  induction entries with
  | nil => rfl
  | cons entry rest ih =>
    obtain ⟨hentry, hrest⟩ := List.forall_mem_cons.mp h
    show ((entry.1 :: Assoc.keys rest).mapM (infoFor inner)) r = _
    rw [List.mapM_cons]
    exact bind_eq_ok_iff.mpr ⟨entry, r, infoFor_of_shows hnamed hentry, bind_eq_ok_iff.mpr ⟨rest, r, ih hrest, rfl⟩⟩

/-! ### Descriptions -/

variable {table : Assoc String FlagInfo} {locked : LockedFlags}

theorem info_ok (hnamed : r.Named) (h : info r = .ok table s) :
    Assoc.keys table = r.names ∧ ∀ entry ∈ table, s.Shows entry := by
  obtain ⟨_, _, hget, h⟩ := bind_eq_ok_iff.mp h
  cases hget
  exact mapM_infoFor_ok hnamed h

theorem info_of_shows (hnamed : r.Named) (hkeys : Assoc.keys table = r.names) (h : ∀ entry ∈ table, r.Shows entry) :
    info r = .ok table r := by
  refine bind_eq_ok_iff.mpr ⟨r, r, rfl, ?_⟩
  rw [← hkeys]
  exact mapM_infoFor_of_shows hnamed h

/-- All flags have values that can be written. -/
def Complete (r : Registry) : Prop :=
  ∀ {name flag}, Assoc.find? r.flags name = some flag →
    ∃ value, Assoc.find? r.values flag.name = some value ∧ flag.isTooLong value = false

/-- A description gives all flags values, but for those that have been registered by factories on the way. -/
theorem complete_of_info (hnamed : r.Named) (h : info r = .ok table s) (hflags : s.flags = r.flags) : s.Complete := by
  intro name flag hflag
  obtain ⟨hkeys, hshows⟩ := info_ok hnamed h
  rw [hflags] at hflag
  obtain rfl := hnamed hflag
  have hname : flag.name ∈ Assoc.keys table := by
    rw [hkeys]
    exact Text.mem_sortOn.mpr (Assoc.mem_keys_of_find? hflag)
  obtain ⟨entry, hentry, hsame⟩ := List.mem_map.mp hname
  obtain ⟨known, value, hknown, hvalue, -, -, hshort⟩ := hshows entry hentry
  rw [hsame, hflags] at hknown
  cases hflag.symm.trans hknown
  exact ⟨value, hsame ▸ hvalue, hshort⟩

/-- Settling a registry is describing all flags, none of which has a value that it may not have. -/
theorem info_of_settle (h : settle r = .ok locked s) :
    info r = .ok locked.info s ∧ firstDisallowed locked.info = none ∧ locked.hash = configHash locked.values := by
  obtain ⟨table, t, hinfo, h⟩ := bind_eq_ok_iff.mp h
  cases hfirst : firstDisallowed table with
  | some entry =>
    rw [hfirst] at h
    cases h
  | none =>
    rw [hfirst] at h
    cases h
    exact ⟨hinfo, hfirst, rfl⟩

/-- What can be described without anything that is not allowed can be settled. -/
theorem settle_of_info (h : info r = .ok table s) (hfirst : firstDisallowed table = none) :
    settle r = .ok ⟨configHash (table.map fun (name, i) => (name, i.value)), table⟩ s := by
  refine bind_eq_ok_iff.mpr ⟨table, s, h, ?_⟩
  rw [hfirst]
  rfl

end Registry

end BuildPlan
