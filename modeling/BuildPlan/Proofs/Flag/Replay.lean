import BuildPlan.Proofs.Flag.Resolution
import BuildPlan.Proofs.State.InStep
import BuildPlan.Target.Entity

/-!
# Flags that are remembered

The second of two runs remembers the values that the flags of the first one ended with, and its command line has some
of the texts of the first one. Reading a flag then gives a value that looks the same in both, wherever it comes from:
`Registry.Replays` says when two registries are as far as each other, and everything that build files do with flags
keeps them in step. The second run calls no factories, so what those of the first run do must not matter: they may use
flags that have been registered before, but register none (`Registry.Ordered`).
-/

namespace BuildPlan

/-- The program gives the value in some run of it. -/
def FactoryProgram.MayGive (program : FactoryProgram) (value : FlagValue) : Prop :=
  ∃ depth t u, Registry.runFactory (Registry.access depth) program t = .ok (some value) u

/-- What the definition gives of itself is of its type: the default, and all that the factory may give. -/
def Flag.HasTypedDefault (flag : Flag) (r : Registry) : Prop :=
  (∀ value, flag.default = some value → value.kind = flag.kind) ∧
    ∀ id, flag.factory = some id → ∀ call value, (r.behavior id call).MayGive value → value.kind = flag.kind

theorem Flag.kind_of_gives {flag : Flag} {r : Registry} {value : FlagValue} (htyped : flag.HasTypedDefault r)
    (h : flag.Gives r value) : value.kind = flag.kind := by
  unfold Gives at h
  split at h
  case h_1 => exact kind_of_parse h
  case h_2 =>
    split at h
    case h_1 id hfactory =>
      obtain ⟨before, depth, t, u, -, -, hrun⟩ := h
      exact htyped.2 id hfactory _ value ⟨depth, t, u, hrun⟩
    case h_2 => exact htyped.1 value h

theorem Flag.parse_congr {a b : Flag} (hkind : a.kind = b.kind) (hname : a.name = b.name) (text : String) :
    a.parse text = b.parse text := by
  rw [parse, parse, hkind, hname]

/-- A value comes from the text that there is for the flag. -/
theorem Flag.parse_of_gives {flag : Flag} {r : Registry} {value : FlagValue} {text : String} (h : flag.Gives r value)
    (htext : r.textFor? flag.name = some text) : flag.parse text = .ok value := by
  unfold Gives at h
  rwa [htext] at h

namespace Registry

variable {final r r' s : Registry} {texts : Assoc String String} {name : String} {flag : Flag} {value : FlagValue}

/-! ### Factories -/

/-- The definitions that a registry may read of itself: those that are registered, and those that factories may use. -/
def Has (r : Registry) (flag : Flag) : Prop := r.Knows (fun _ => False) flag

/-- The second registry has all flags of the first one, and knows all its factories. -/
structure Covers (r s : Registry) : Prop where
  flags : ∀ {name flag}, Assoc.find? r.flags name = some flag → Assoc.find? s.flags name = some flag
  learned : ∀ {id behavior}, Assoc.find? r.factories id = some behavior → Assoc.find? s.factories id = some behavior

theorem Grows.covers (h : Grows r s) : Covers r s := ⟨h.flags, h.learned⟩

namespace Covers

variable (h : Covers r s)
include h

theorem behavior (id : String) : s.behavior id = r.behavior id ∨ r.behavior id = fun _ => .gives none := by
  unfold Registry.behavior
  cases hknown : Assoc.find? r.factories id with
  | some known =>
    rw [h.learned hknown]
    exact .inl rfl
  | none => exact .inr rfl

theorem mentions {id : String} {call : Nat} (hmentions : (r.behavior id call).Mentions flag) :
    (s.behavior id call).Mentions flag := by
  rcases h.behavior id with hsame | hnone
  · rwa [hsame]
  · rw [hnone] at hmentions
    exact absurd hmentions (FactoryProgram.not_mentions_ofOutcome (.ok none) flag)

theorem has (hhas : r.Has flag) : s.Has flag := by
  rcases hhas with ⟨name, hflag⟩ | hfalse | ⟨id, call, hmentions⟩
  · exact .inl ⟨name, h.flags hflag⟩
  · exact hfalse.elim
  · exact .inr (.inr ⟨id, call, h.mentions hmentions⟩)

theorem hasTypedDefault (htyped : flag.HasTypedDefault s) : flag.HasTypedDefault r := by
  refine ⟨htyped.1, fun id hfactory call value hgives => ?_⟩
  rcases h.behavior id with hsame | hnone
  · exact htyped.2 id hfactory call value (by rwa [hsame])
  · rw [hnone] at hgives
    obtain ⟨depth, t, u, hrun⟩ := hgives
    cases hrun

end Covers

/-- Whatever the factory of a registered flag may use has been registered before that flag. -/
def Ordered (r : Registry) : Prop :=
  ∀ before name flag after id, r.flags = before ++ (name, flag) :: after → flag.factory = some id → ∀ call other,
    (r.behavior id call).Mentions other → other.name ∈ Assoc.keys before

theorem Ordered.of_covers (hordered : s.Ordered) (h : Covers r s) (hflags : s.flags = r.flags) : r.Ordered := by
  intro before name flag after id hsplit hfactory call other hmentions
  exact hordered before name flag after id (hflags.trans hsplit) hfactory call other (h.mentions hmentions)

/-- A factory finds all that it may use at any time in a run that ends in good order. -/
theorem Ordered.closed (hordered : final.Ordered) (h : Grows r final) : r.Closed := by
  intro name flag id hflag hfactory call other hmentions
  obtain ⟨before, after, hsplit⟩ := List.append_of_mem (Assoc.mem_of_find? hflag)
  obtain ⟨added, hadded⟩ := h.initial
  have hfinal : final.flags = before ++ (name, flag) :: (after ++ added) := by
    rw [← hadded, hsplit, List.append_assoc, List.cons_append]
  have hearlier := hordered before name flag _ id hfinal hfactory call other (h.covers.mentions hmentions)
  rw [hsplit, Assoc.keys, List.map_append]
  exact List.mem_append_left _ hearlier

/-! ### Registries in step -/

/-- A file remembers the values of the flags that a registry ended with, all of which can be read back. -/
structure Remembers (final : Registry) (texts : Assoc String String) : Prop where
  texts : ∀ {name flag value}, Assoc.find? final.flags name = some flag → Assoc.find? final.values name = some value →
    Assoc.find? texts name = some (flag.format value) ∧ flag.isTooLong value = false
  typed : ∀ {flag}, final.Has flag → flag.HasTypedDefault final
  floats : ∀ {name x}, Assoc.find? final.values name = some (.float x) → x.ReadsBack
  ordered : final.Ordered

/-- Each value is of the type of the flag by its name, and comes from the command line where that has a text. -/
def Sourced (r : Registry) : Prop :=
  ∀ {name value}, Assoc.find? r.values name = some value → ∃ flag, Assoc.find? r.flags name = some flag ∧
    value.kind = flag.kind ∧ ∀ text, Assoc.find? r.commandLine name = some text → flag.parse text = .ok value

/-- The second registry is no further than the first one, but it takes its values from a table of texts where its
command line does not give them. -/
structure Replays (texts : Assoc String String) (r r' : Registry) : Prop where
  flags : r'.flags = r.flags
  locked : r.locked = none
  locked' : r'.locked = none
  named : r.Named
  commandLine : ∀ {name text}, Assoc.find? r'.commandLine name = some text →
    Assoc.find? r.commandLine name = some text
  remembered : r'.remembered = texts
  sourced : r.Sourced
  values : ∀ {name value'}, Assoc.find? r'.values name = some value' → ∃ flag value,
    Assoc.find? r.flags name = some flag ∧ Assoc.find? r.values name = some value ∧ flag.Alike value value'

/-- The first run ends with the registry `final`, whose values the second one remembers as `texts`. -/
def replay (final : Registry) (texts : Assoc String String) : Pace Registry where
  Meets := Replays texts
  Grows := Grows
  lasting := Grows.lasting
  Leads r := r.Grows final
  leads_of_grows := Grows.lasting.trans
  Fails _ := False
  leads_of_fails := False.elim

/-- The recorded texts as they come back from a file, which has them in the order of their names. -/
def readBack (locked : LockedFlags) : Assoc String String := Assoc.ofList (Text.sortOn (·.1) locked.values)

/-- The texts that settling a registry records are remembered, if no flag has been registered on the way. -/
theorem Remembers.of_settle {locked : LockedFlags} (h : settle r = .ok locked final) (hnamed : r.Named)
    (hflags : final.flags = r.flags) (htyped : ∀ {flag}, final.Has flag → flag.HasTypedDefault final)
    (hfloats : ∀ {name x}, Assoc.find? final.values name = some (.float x) → x.ReadsBack) (hordered : final.Ordered) :
    Remembers final (readBack locked) := by
  refine ⟨fun {name flag value} hflag hvalue => ?_, htyped, hfloats, hordered⟩
  obtain ⟨hkeys, hshows⟩ := info_ok hnamed (info_of_settle h).1
  have hname : name ∈ Assoc.keys locked.info := by
    rw [hkeys]
    rw [hflags] at hflag
    exact Text.mem_sortOn.mpr (Assoc.mem_keys_of_find? hflag)
  let textOf : String → String := fun name =>
    ((Assoc.find? final.flags name).bind fun flag => (Assoc.find? final.values name).map flag.format).getD ""
  have hentries : ∀ entry ∈ Text.sortOn (·.1) locked.values, entry.2 = textOf entry.1 := by
    intro entry hentry
    obtain ⟨described, hdescribed, rfl⟩ := List.mem_map.mp (Text.mem_sortOn.mp hentry)
    obtain ⟨known, found, hknown, hfound, hinfo, -⟩ := hshows described hdescribed
    simp only [textOf, hknown, hfound, hinfo]
    rfl
  have hrecorded : name ∈ Assoc.keys (Text.sortOn (·.1) locked.values) := by
    obtain ⟨described, hdescribed, rfl⟩ := List.mem_map.mp hname
    refine List.mem_map.mpr ⟨(described.1, described.2.value), ?_, rfl⟩
    exact Text.mem_sortOn.mpr (List.mem_map.mpr ⟨described, hdescribed, rfl⟩)
  refine ⟨?_, ?_⟩
  · rw [readBack, Assoc.ofList, Assoc.find?_insertAll textOf hentries, if_pos hrecorded]
    simp only [textOf, hflag, hvalue]
    rfl
  · obtain ⟨described, hdescribed, rfl⟩ := List.mem_map.mp hname
    obtain ⟨known, found, hknown, hfound, -, -, hshort⟩ := hshows described hdescribed
    cases hflag.symm.trans hknown
    cases hvalue.symm.trans hfound
    exact hshort

/-! ### Values -/

theorem Sourced.reads (h : r.Sourced) (hnamed : r.Named) (hreads : Reads (fun _ => False) r s)
    (htyped : ∀ {flag}, s.Has flag → flag.HasTypedDefault s) : s.Sourced := by
  intro name value hvalue
  cases hknown : Assoc.find? r.values name with
  | some known =>
    cases hvalue.symm.trans (hreads.values hknown)
    obtain ⟨flag, hflag, hkind, hparse⟩ := h hknown
    exact ⟨flag, hreads.flags hflag, hkind, by rwa [hreads.commandLine]⟩
  | none =>
    obtain ⟨flag, used, hflag, rfl, hkind, hknows, hgives⟩ := hreads.origin hnamed hknown hvalue
    refine ⟨flag, hflag, ?_, fun text htext => ?_⟩
    · rw [Flag.kind_of_gives (htyped (hreads.toGrows.covers.has hknows)) hgives, hkind]
    · have hfound : s.textFor? used.name = some text := by
        rw [textFor?, htext]
        rfl
      rw [← Flag.parse_congr hkind (hreads.named hnamed hflag).symm]
      exact Flag.parse_of_gives hgives hfound

theorem Replays.enter (h : Replays texts s r') (hflag : Assoc.find? s.flags name = some flag) {value' : FlagValue}
    (hvalue : Assoc.find? s.values name = some value) (halike : flag.Alike value value') :
    Replays texts s { r' with values := Assoc.insert r'.values name value' } := by
  refine { h with values := fun {other known'} hknown => ?_ }
  rw [Assoc.find?_insert] at hknown
  by_cases hother : other = name
  · rw [if_pos hother] at hknown
    cases hknown
    subst hother
    exact ⟨flag, value, hflag, hvalue, halike⟩
  · rw [if_neg hother] at hknown
    exact h.values hknown

theorem Replays.reads (hrem : Remembers final texts) (hmeets : Replays texts r r')
    (hreads : Reads (fun _ => False) r s) (hleads : s.Grows final) : Replays texts s r' where
  flags := by
    rw [hmeets.flags, hreads.quiet (hrem.ordered.closed (Grows.lasting.trans hreads.toGrows hleads)) fun _ => False.elim]
  locked := hreads.locked.trans hmeets.locked
  locked' := hmeets.locked'
  named := hreads.named hmeets.named
  commandLine h := by
    rw [hreads.commandLine]
    exact hmeets.commandLine h
  remembered := hmeets.remembered
  sourced := Sourced.reads hmeets.sourced hmeets.named hreads fun hhas =>
    hleads.covers.hasTypedDefault (hrem.typed (hleads.covers.has hhas))
  values h := by
    obtain ⟨flag, value, hflag, hvalue, halike⟩ := hmeets.values h
    exact ⟨flag, value, hreads.flags hflag, hreads.values hvalue, halike⟩

theorem resolve_replay (hrem : Remembers final texts) (hmeets : Replays texts s r')
    (hflag : Assoc.find? s.flags flag.name = some flag) (hvalue : Assoc.find? s.values flag.name = some value)
    (hleads : s.Grows final) : ∃ value', resolve factoryAccess flag r' = .ok value' r' ∧ flag.Alike value value' := by
  obtain ⟨known, hknown, hkind, hparse⟩ := hmeets.sourced hvalue
  cases hflag.symm.trans hknown
  cases hcommand : Assoc.find? r'.commandLine flag.name with
  | some text =>
    have htext : r'.textFor? flag.name = some text := by
      rw [textFor?, hcommand]
      rfl
    refine ⟨value, ?_, .refl flag value⟩
    rw [resolve_of_text htext, hparse text (hmeets.commandLine hcommand)]
    rfl
  | none =>
    obtain ⟨hremembered, hshort⟩ := hrem.texts (hleads.flags hflag) (hleads.values hvalue)
    have htext : r'.textFor? flag.name = some (flag.format value) := by
      rw [textFor?, hcommand, hmeets.remembered, hremembered]
      rfl
    obtain ⟨value', hback, halike⟩ := Flag.parse_format hkind hshort fun x hx =>
      hrem.floats (hleads.values (hx ▸ hvalue))
    refine ⟨value', ?_, halike⟩
    rw [resolve_of_text htext, hback]
    rfl

/-- The value of a registered flag looks the same in both runs, and the registries stay in step. -/
theorem valueBy_replay (hrem : Remembers final texts) (hmeets : Replays texts r r')
    (hflag : Assoc.find? r.flags flag.name = some flag) (h : valueBy factoryAccess flag r = .ok value s)
    (hleads : s.Grows final) :
    ∃ value' s', valueBy factoryAccess flag r' = .ok value' s' ∧ flag.Alike value value' ∧ Replays texts s s' := by
  have hreads : Reads (fun _ => False) r s := by
    have hkeeps := (reads_access nestingLimit).valueBy (.self (fun _ => False) hflag)
    rwa [show access nestingLimit = factoryAccess from rfl, endState_of_ok h] at hkeeps
  -- the second run has no more to find out than the first one has when it is done with the flag
  have hmeets' := hmeets.reads hrem hreads hleads
  have hvalue := valueBy_ok h
  have hregistered := hreads.flags hflag
  cases hknown' : Assoc.find? r'.values flag.name with
  | some value' =>
    obtain ⟨known, found, hknown, hfound, halike⟩ := hmeets'.values hknown'
    cases hregistered.symm.trans hknown
    cases hvalue.symm.trans hfound
    exact ⟨value', r', valueBy_of_known hknown', halike, hmeets'⟩
  | none =>
    obtain ⟨value', hresolve, halike⟩ := resolve_replay hrem hmeets' hregistered hvalue hleads
    exact ⟨value', _, valueBy_of_resolve hknown' hresolve, halike, hmeets'.enter hregistered hvalue halike⟩

/-! ### Operations of build files -/

theorem inStep_raise {P : Pace Registry} {α : Type} (cause : Cause) : InStep P (raise cause : RegistryM α) := .throw _

theorem learn_eq (r : Registry) (source : FlagSource) : ∃ factories, r.learn source = { r with factories } := by
  unfold learn
  cases source.flag.factory with
  | none => exact ⟨r.factories, rfl⟩
  | some factory =>
    simp only
    split
    · exact ⟨r.factories, rfl⟩
    · exact ⟨_, rfl⟩

theorem Replays.learn (h : Replays texts r r') (source : FlagSource) :
    Replays texts (r.learn source) (r'.learn source) := by
  obtain ⟨factories, hfirst⟩ := learn_eq r source
  obtain ⟨factories', hsecond⟩ := learn_eq r' source
  rw [hfirst, hsecond]
  exact { h with }

theorem inStep_adopt (source : FlagSource) : InStep (replay final texts) (adopt source) where
  keeps := keeps_adopt source
  ok hmeets h _ := by
    cases h
    exact ⟨_, rfl, hmeets.learn source⟩
  error _ _ hfails := hfails.elim

theorem keeps_register (flag : Flag) : Keeps Grows (register flag) := fun r =>
  (reads_register (Eq.refl flag) r).toGrows

theorem inStep_register (flag : Flag) : InStep (replay final texts) (register flag) where
  keeps := keeps_register flag
  ok {r r' s a} hmeets h _ := by
    have hgrows := (keeps_register flag).ok h
    rw [register_eq] at h ⊢
    have hopen : ¬r.locked.isSome = true := by simp [hmeets.locked]
    have hopen' : ¬r'.locked.isSome = true := by simp [hmeets.locked']
    rw [if_neg hopen', hmeets.flags]
    rw [if_neg hopen] at h
    cases hknown : Assoc.find? r.flags flag.name with
    | some known =>
      simp only [hknown] at h ⊢
      by_cases hsame : known.same flag
      · rw [if_pos hsame] at h ⊢
        cases h
        exact ⟨_, rfl, hmeets⟩
      · rw [if_neg hsame] at h
        cases h
    | none =>
      simp only [hknown] at h ⊢
      cases h
      refine ⟨_, rfl, { hmeets with flags := rfl, named := hgrows.named hmeets.named, sourced := ?_, values := ?_ }⟩
      · intro name value hvalue
        obtain ⟨flag', hflag', hsource⟩ := hmeets.sourced hvalue
        exact ⟨flag', hgrows.flags hflag', hsource⟩
      · intro name value' hvalue'
        obtain ⟨flag', value, hflag', hvalues⟩ := hmeets.values hvalue'
        exact ⟨flag', value, hgrows.flags hflag', hvalues⟩
  error _ _ hfails := hfails.elim

theorem read_of_unknown (h : Assoc.find? r.flags name = none) :
    read (.name name) r = .error (.of (.notRegistered name)) r := by
  refine bind_eq_error_iff.mpr (.inr ⟨r, r, rfl, ?_⟩)
  rw [h]
  rfl

theorem read_of_registered (h : Assoc.find? r.flags name = some flag) :
    read (.name name) r = valueBy factoryAccess flag r := by
  simp only [read, readVia, run_get_bind, h]

theorem read_name_ok (h : read (.name name) r = .ok value s) :
    ∃ flag, Assoc.find? r.flags name = some flag ∧ valueBy factoryAccess flag r = .ok value s := by
  cases hflag : Assoc.find? r.flags name with
  | some flag => exact ⟨flag, rfl, by rwa [read_of_registered hflag] at h⟩
  | none =>
    rw [read_of_unknown hflag] at h
    cases h

theorem keeps_read (reference : FlagReference) : Keeps Grows (read reference) := fun r =>
  (reads_read reference r).toGrows

section values

variable (hrem : Remembers final texts)
include hrem

theorem read_name_replay (hmeets : Replays texts r r') (h : read (.name name) r = .ok value s)
    (hleads : s.Grows final) :
    ∃ flag value' s', Assoc.find? s.flags name = some flag ∧ Assoc.find? s'.flags name = some flag ∧
      read (.name name) r' = .ok value' s' ∧ flag.Alike value value' ∧ Replays texts s s' := by
  obtain ⟨flag, hflag, hvalue⟩ := read_name_ok h
  obtain rfl := hmeets.named hflag
  obtain ⟨value', s', hvalue', halike, hmeets'⟩ := valueBy_replay hrem hmeets hflag hvalue hleads
  have hregistered := ((keeps_read _).ok h).flags hflag
  refine ⟨flag, value', s', hregistered, by rwa [hmeets'.flags], ?_, halike, hmeets'⟩
  rw [read_of_registered (by rwa [hmeets.flags]), hvalue']

theorem inStep_discard_read (name : String) : InStep (replay final texts) (discard (read (.name name))) where
  keeps := (keeps_read _).map Grows.lasting _
  ok {r r' s a} hmeets h hleads := by
    obtain ⟨value, hread⟩ := discard_eq_ok_iff.mp h
    obtain ⟨_, value', s', -, -, hread', -, hmeets'⟩ := read_name_replay hrem hmeets hread hleads
    exact ⟨s', discard_eq_ok_iff.mpr ⟨value', hread'⟩, hmeets'⟩
  error _ _ hfails := hfails.elim

end values

/-- Two values that look the same pass the same check. -/
theorem checkLengths_alike {value' : FlagValue} (h : flag.Alike value value') :
    checkLengths flag [value'] = checkLengths flag [value] := by
  simp [checkLengths, h.isTooLong]

theorem checkLengths_of_ok {values : List FlagValue} (h : checkLengths flag values r = .ok () s) (r' : Registry) :
    checkLengths flag values r' = .ok () r' := checkLengths_of_short (checkLengths_ok h).2 r'

theorem reads_flagText (name : String) : Keeps (Reads fun _ => False) (flagText name) := by
  have hread : Keeps (Reads fun _ => False) (read (.name name)) := fun r =>
    (reads_read (.name name) r).mono nofun
  refine hread.bind (Reads.lasting _) fun value => ?_
  refine (keeps_get (Reads.lasting _)).bind (Reads.lasting _) fun r => ?_
  split
  · exact (keeps_checkLengths (Reads.lasting _) _ _).bind (Reads.lasting _) fun _ => .pure (Reads.lasting _) _
  · exact .pure (Reads.lasting _) _

theorem keeps_flagText (name : String) : Keeps Grows (flagText name) := fun r => (reads_flagText name r).toGrows

theorem flagText_of_read {t : Registry} (hread : read (.name name) r = .ok value s)
    (hflag : Assoc.find? s.flags name = some flag) (hlengths : checkLengths flag [value] s = .ok () t) :
    flagText name r = .ok (flag.format value) t := by
  refine bind_eq_ok_iff.mpr ⟨value, s, hread, bind_eq_ok_iff.mpr ⟨s, s, rfl, ?_⟩⟩
  rw [hflag]
  exact bind_eq_ok_iff.mpr ⟨(), t, hlengths, rfl⟩

theorem inStep_flagText (hrem : Remembers final texts) (name : String) :
    InStep (replay final texts) (flagText name) where
  keeps := keeps_flagText name
  ok {r r' s text} hmeets h hleads := by
    obtain ⟨value, t, hread, h₁⟩ := bind_eq_ok_iff.mp h
    obtain ⟨_, _, hget, h₂⟩ := bind_eq_ok_iff.mp h₁
    cases hget
    cases hflag : Assoc.find? t.flags name with
    | none =>
      rw [hflag] at h₂
      cases h₂
      obtain ⟨flag, _, _, hflag', -⟩ := read_name_replay hrem hmeets hread hleads
      rw [hflag] at hflag'
      cases hflag'
    | some flag =>
      rw [hflag] at h₂
      obtain ⟨_, u, hlengths, h₃⟩ := bind_eq_ok_iff.mp h₂
      obtain ⟨rfl, -⟩ := checkLengths_ok hlengths
      cases h₃
      obtain ⟨known, value', s', hknown, hknown', hread', halike, hmeets'⟩ :=
        read_name_replay hrem hmeets hread hleads
      cases hflag.symm.trans hknown
      have hlengths' : checkLengths flag [value'] s' = .ok () s' := by
        rw [checkLengths_alike halike]
        exact checkLengths_of_ok hlengths s'
      refine ⟨s', ?_, hmeets'⟩
      rw [flagText_of_read hread' hknown' hlengths', halike.format]
  error _ _ hfails := hfails.elim

theorem inStep_infoFor (hrem : Remembers final texts) (name : String) :
    InStep (replay final texts) (infoFor factoryAccess name) where
  keeps r := (reads_infoFor (fun _ => False) name r).toGrows
  ok {r r' s entry} hmeets h hleads := by
    obtain ⟨_, _, hget, h₁⟩ := bind_eq_ok_iff.mp h
    cases hget
    cases hflag : Assoc.find? r.flags name with
    | none =>
      rw [hflag] at h₁
      cases h₁
    | some flag =>
      rw [hflag] at h₁
      obtain ⟨_, t, hallowed, h₂⟩ := bind_eq_ok_iff.mp h₁
      obtain ⟨rfl, -⟩ := checkLengths_ok hallowed
      obtain ⟨value, u, hvalue, h₃⟩ := bind_eq_ok_iff.mp h₂
      obtain ⟨_, v, hlengths, h₄⟩ := bind_eq_ok_iff.mp h₃
      obtain ⟨rfl, -⟩ := checkLengths_ok hlengths
      cases h₄
      have hown : Assoc.find? t.flags flag.name = some flag := by rw [hmeets.named hflag, hflag]
      obtain ⟨value', s', hvalue', halike, hmeets'⟩ := valueBy_replay hrem hmeets hown hvalue hleads
      have hlengths' : checkLengths flag [value'] s' = .ok () s' := by
        rw [checkLengths_alike halike]
        exact checkLengths_of_ok hlengths s'
      refine ⟨s', bind_eq_ok_iff.mpr ⟨r', r', rfl, ?_⟩, hmeets'⟩
      rw [hmeets.flags, hflag]
      refine bind_eq_ok_iff.mpr ⟨(), r', checkLengths_of_ok hallowed r', ?_⟩
      refine bind_eq_ok_iff.mpr ⟨value', s', hvalue', bind_eq_ok_iff.mpr ⟨(), s', hlengths', ?_⟩⟩
      rw [halike.format]
      rfl
  error _ _ hfails := hfails.elim

theorem inStep_infoVia {P : Pace Registry} {inner : Access}
    (hflags : ∀ {r r'}, P.Meets r r' → r'.flags = r.flags) (h : ∀ name, InStep P (infoFor inner name)) :
    InStep P (infoVia inner) := by
  have hnames : InStep P (do return (← get).names : RegistryM (List String)) :=
    .read names fun {r r'} hmeets => by
      rw [names, names, hflags hmeets]
  exact hnames.bind fun names => .mapM fun name _ => h name

theorem inStep_settle_of_info {P : Pace Registry} (hinfo : InStep P info) : InStep P settle := by
  refine hinfo.bind fun info => ?_
  split
  · exact inStep_raise _
  · exact .pure _

theorem inStep_settle (hrem : Remembers final texts) : InStep (replay final texts) settle :=
  inStep_settle_of_info (inStep_infoVia Replays.flags (inStep_infoFor hrem))

end Registry

end BuildPlan
