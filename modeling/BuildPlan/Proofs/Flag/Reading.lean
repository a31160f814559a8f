import BuildPlan.Proofs.Flag.Growth

/-!
# How flags get their values

What each operation on a registry does comes to `Registry.Reads`: by recursion over the programs of factories, and by
induction on how deep they call each other.
-/

namespace BuildPlan

namespace Registry

variable {r s : Registry} {asked : Flag → Prop} {flag used : Flag} {value : FlagValue} {depth : Nat} {inner : Access}

/-! ### Registering -/

theorem register_eq (flag : Flag) (r : Registry) :
    register flag r =
      if r.locked.isSome then .error (.of (.registeredAfterLock flag.name)) r
      else
        match Assoc.find? r.flags flag.name with
        | some known => if known.same flag then .ok () r else .error (.of (.duplicateFlag flag.name)) r
        | none => .ok () { r with flags := Assoc.insert r.flags flag.name flag } := by
  unfold register
  change (if r.locked.isSome then _ else _ : RegistryM Unit) r = _
  split
  · rfl
  · change (match Assoc.find? r.flags flag.name with
      | some known => if known.same flag then pure () else raise (.duplicateFlag flag.name)
      | none => set { r with flags := Assoc.insert r.flags flag.name flag } : RegistryM Unit) r = _
    cases Assoc.find? r.flags flag.name with
    | none => rfl
    | some known =>
      by_cases hsame : known.same flag
      · simp only [if_pos hsame]
        rfl
      · simp only [if_neg hsame]
        rfl

theorem endState_register (flag : Flag) (r : Registry) :
    endState (register flag) r = r ∨ r.locked = none ∧ Assoc.find? r.flags flag.name = none ∧
      endState (register flag) r = { r with flags := r.flags ++ [(flag.name, flag)] } := by
  rw [endState, register_eq]
  cases hlocked : r.locked with
  | some locked => exact .inl rfl
  | none =>
    cases hknown : Assoc.find? r.flags flag.name with
    | some known => by_cases hsame : known.same flag <;> simp [hsame]
    | none =>
      refine .inr ⟨rfl, rfl, ?_⟩
      have hnew : flag.name ∉ Assoc.keys r.flags := fun hmem => by
        obtain ⟨other, hother⟩ := Assoc.exists_find?_of_mem_keys hmem
        rw [hknown] at hother
        cases hother
      simp [Assoc.insert_of_notMem hnew]

theorem reads_register (h : asked flag) : Keeps (Reads asked) (register flag) := by
  intro r
  rcases endState_register flag r with hsame | ⟨hopen, hnew, hstate⟩
  · rw [hsame]
    exact .refl asked r
  rw [hstate]
  have hfind : ∀ {name other}, Assoc.find? (r.flags ++ [(flag.name, flag)]) name = some other →
      Assoc.find? r.flags name = some other ∨ flag.name = name ∧ flag = other := by
    intro name other hfound
    rw [Assoc.find?_append, Option.or_eq_some_iff] at hfound
    refine hfound.imp_right fun ⟨_, hlast⟩ => ?_
    simpa [Assoc.find?] using hlast
  have hkeys : flag.name ∉ Assoc.keys r.flags := fun hmem => by
    obtain ⟨known, hknown⟩ := Assoc.exists_find?_of_mem_keys hmem
    rw [hnew] at hknown
    cases hknown
  refine { Reads.refl asked r with
    initial := ?_, named := ?_, nodup := ?_, enrolled := ?_, quiet := ?_, late := ?_, origin := ?_ }
  · exact List.prefix_append _ _
  · intro hnamed name other hfound
    rcases hfind hfound with hfound | ⟨hname, rfl⟩
    · exact hnamed hfound
    · exact hname
  · intro hnodup
    rw [Assoc.keys, List.map_append]
    refine List.nodup_append.mpr ⟨hnodup, List.pairwise_singleton _ _, fun name hname other hother heq => ?_⟩
    rw [heq, List.mem_singleton.mp hother] at hname
    exact hkeys hname
  · exact ⟨[(flag.name, flag)], rfl, List.forall_mem_singleton.mpr (.inl h)⟩
  · exact fun _ hall => absurd (hall flag h) hkeys
  · intro hlocked
    rw [hopen] at hlocked
    cases hlocked
  · intro _ name value hnone hsome
    rw [hnone] at hsome
    cases hsome

/-! ### Factories -/

theorem caught_bind {α β : Type} (operation : RegistryM α) (f : Except Failure α → RegistryM β) (r : Registry) :
    (caught operation >>= f) r = f (answer operation r) (endState operation r) := by
  show EStateM.bind (caught operation) f r = _
  unfold EStateM.bind caught answer endState
  cases operation r <;> rfl

theorem endState_caught_bind {α β : Type} (operation : RegistryM α) (f : Except Failure α → RegistryM β) (r : Registry) :
    endState (caught operation >>= f) r = endState (f (answer operation r)) (endState operation r) := by
  rw [endState, caught_bind, ← endState]

/-- The operations for factories read flags. -/
structure Access.Reads (inner : Access) : Prop where
  read : ∀ reference, Keeps (Registry.Reads (· ∈ reference.mentioned)) (inner.read reference)
  info : Keeps (Registry.Reads fun _ => False) inner.info

theorem Access.Reads.runFactory (hinner : inner.Reads) (program : FactoryProgram) :
    Keeps (Registry.Reads program.Mentions) (Registry.runFactory inner program) := by
  induction program with
  | gives value => exact fun r => .refl _ r
  | fails failure => exact fun r => .refl _ r
  | registers flag next ih =>
    intro r
    have hfirst : Registry.Reads (FactoryProgram.registers flag next).Mentions r (endState (register flag) r) :=
      reads_register .registers r
    rw [Registry.runFactory, endState_caught_bind]
    exact hfirst.trans ((ih _ _).mono fun _ => .later (.registers _))
  | reads reference next ih =>
    intro r
    have hfirst := (hinner.read reference r).mono fun flag hflag =>
      (.reads hflag : (FactoryProgram.reads reference next).Mentions flag)
    rw [Registry.runFactory, endState_caught_bind]
    exact hfirst.trans ((ih _ _).mono fun _ => .later (.reads _))
  | describes next ih =>
    intro r
    have hfirst : Registry.Reads (FactoryProgram.describes next).Mentions r (endState inner.info r) :=
      (hinner.info r).mono fun _ => False.elim
    rw [Registry.runFactory, endState_caught_bind]
    exact hfirst.trans ((ih _ _).mono fun _ => .later (.describes _))
  | looks next ih =>
    intro r
    rw [Registry.runFactory, endState_get_bind]
    exact (ih _ _ r).mono fun _ => .later (.looks _ _)

theorem defaultValue_of_none (h : flag.factory = none) (r : Registry) :
    defaultValue inner flag r = .ok flag.default r := by
  unfold defaultValue
  rw [h]
  rfl

theorem defaultValue_of_factory {id : String} (h : flag.factory = some id) (r : Registry) :
    defaultValue inner flag r = runFactory inner (r.behavior id (r.callsOf id))
      { r with calls := r.calls ++ [{ factory := id, flag := flag.name }] } := by
  unfold defaultValue
  rw [h]
  rfl

/-! ### Values -/

theorem endState_ofExcept {α : Type} (x : Except Cause α) (r : Registry) : endState (ofExcept x) r = r := by
  cases x <;> rfl

theorem resolve_of_text {text : String} (h : r.textFor? flag.name = some text) :
    resolve inner flag r = ofExcept (flag.parse text) r := by
  simp only [resolve, run_get_bind, h]

theorem resolve_of_default (h : r.textFor? flag.name = none) :
    resolve inner flag r =
      (defaultValue inner flag >>= fun found => found.elim (raise (.missingFlagValue flag.name)) pure) r := by
  simp only [resolve, run_get_bind, h]
  refine congrFun (bind_congr fun found => ?_) r
  cases found <;> rfl

/-- A flag gets a value from its default if there is one. -/
theorem resolve_eq_ok_iff (h : r.textFor? flag.name = none) :
    resolve inner flag r = .ok value s ↔ defaultValue inner flag r = .ok (some value) s := by
  rw [resolve_of_default h, bind_eq_ok_iff]
  constructor
  · rintro ⟨found, t, hdefault, hlast⟩
    cases found with
    | none => cases hlast
    | some found =>
      cases hlast
      exact hdefault
  · exact fun hdefault => ⟨some value, s, hdefault, rfl⟩

/-- Resolving a flag calls its factory at most once, and not if there is a text for the flag. -/
theorem endState_resolve (flag : Flag) (r : Registry) : endState (resolve inner flag) r =
    if (r.textFor? flag.name).isSome then r else endState (defaultValue inner flag) r := by
  cases htext : r.textFor? flag.name with
  | some text =>
    rw [endState, resolve_of_text htext, ← endState, endState_ofExcept]
    rfl
  | none =>
    rw [endState, resolve_of_default htext, ← endState, endState_bind_quiet]
    · rfl
    · intro value s
      cases value <;> rfl

/-- A definition that is used for a registered flag, of its type and with its factory. -/
structure Serves (r : Registry) (asked : Flag → Prop) (used flag : Flag) : Prop where
  registered : ∃ name, Assoc.find? r.flags name = some flag ∧ (r.Named → name = used.name)
  kind : used.kind = flag.kind
  factory : used.factory = flag.factory
  known : r.Knows asked used

theorem gives_of_text {text : String} (htext : r.textFor? flag.name = some text)
    (h : resolve inner flag r = .ok value s) : flag.Gives s value := by
  rw [resolve_of_text htext] at h
  unfold Flag.Gives
  cases hparse : flag.parse text with
  | ok found =>
    rw [hparse] at h
    cases h
    simp only [htext, hparse]
  | error cause =>
    rw [hparse] at h
    cases h

theorem gives_of_default (htext : r.textFor? flag.name = none) (hfactory : flag.factory = none)
    (h : resolve inner flag r = .ok value s) : flag.Gives s value := by
  rw [resolve_eq_ok_iff htext, defaultValue_of_none hfactory] at h
  obtain ⟨hdefault, rfl⟩ := EStateM.Result.ok.inj h
  unfold Flag.Gives
  simp only [htext, hfactory, hdefault]

section factory

variable {id : String} (hvalue : Assoc.find? r.values used.name = none) (hserves : r.Serves asked used flag)
  (htext : r.textFor? used.name = none) (hfactory : used.factory = some id)
include hvalue hserves htext hfactory

theorem reads_call : Reads asked r { r with calls := r.calls ++ [{ factory := id, flag := used.name }] } := by
  refine { Reads.refl asked r with calls := ⟨_, rfl, List.forall_mem_singleton.mpr ?_⟩, origin := ?_ }
  · exact ⟨htext, hvalue, used, hserves.known, rfl, hfactory⟩
  · intro _ name value hnone hsome
    rw [hnone] at hsome
    cases hsome

theorem Access.Reads.resolve_of_factory (hinner : (access depth).Reads) :
    Registry.Reads asked r (endState (Registry.resolve (access depth) used) r) ∧
      ∀ value s, Registry.resolve (access depth) used r = .ok value s → used.Gives s value := by
  have hcalled := reads_call hvalue hserves htext hfactory
  have hrun := hinner.runFactory (r.behavior id (r.callsOf id))
    { r with calls := r.calls ++ [{ factory := id, flag := used.name }] }
  rw [endState_resolve, htext, Option.isSome_none, if_neg Bool.false_ne_true]
  constructor
  · rw [endState, defaultValue_of_factory hfactory, ← endState]
    -- what the factory asks for counts as what factories use, so nobody else has to have asked for it
    refine hcalled.trans (hrun.absorb (fun other hmentions => .inr ⟨id, _, hmentions⟩) ?_)
    intro hclosed _ other hmentions
    obtain ⟨name, hregistered, -⟩ := hserves.registered
    exact hclosed hregistered (hserves.factory ▸ hfactory) _ other hmentions
  · intro value s hresolve
    rw [resolve_eq_ok_iff htext, defaultValue_of_factory hfactory] at hresolve
    rw [endState_of_ok hresolve] at hrun
    have hsame : s.textFor? used.name = r.textFor? used.name :=
      textFor?_congr hrun.commandLine hrun.remembered used.name
    unfold Flag.Gives
    rw [hsame, htext, hfactory]
    have hbehavior : s.behavior id = r.behavior id := behavior_congr hrun.factories id
    rw [← hbehavior] at hresolve
    exact ⟨r.calls, depth, _, s, hrun.prefix_calls, by rfl, hresolve⟩

end factory

theorem Access.Reads.resolve (hinner : (access depth).Reads) (hvalue : Assoc.find? r.values used.name = none)
    (hserves : r.Serves asked used flag) :
    Registry.Reads asked r (endState (Registry.resolve (access depth) used) r) ∧
      ∀ value s, Registry.resolve (access depth) used r = .ok value s → used.Gives s value := by
  cases htext : r.textFor? used.name with
  | some text =>
    rw [endState_resolve, htext]
    exact ⟨.refl asked r, fun _ _ => gives_of_text htext⟩
  | none =>
    cases hfactory : used.factory with
    | none =>
      rw [endState_resolve, htext, Option.isSome_none, if_neg Bool.false_ne_true,
        endState_of_ok (defaultValue_of_none hfactory r)]
      exact ⟨.refl asked r, fun _ _ => gives_of_default htext hfactory⟩
    | some id => exact hinner.resolve_of_factory hvalue hserves htext hfactory

theorem valueBy_of_known (h : Assoc.find? r.values flag.name = some value) : valueBy inner flag r = .ok value r := by
  refine bind_eq_ok_iff.mpr ⟨r, r, rfl, ?_⟩
  rw [h]
  rfl

theorem valueBy_of_resolve (h : Assoc.find? r.values flag.name = none) (hresolve : resolve inner flag r = .ok value s) :
    valueBy inner flag r = .ok value { s with values := Assoc.insert s.values flag.name value } := by
  refine bind_eq_ok_iff.mpr ⟨r, r, rfl, ?_⟩
  rw [h]
  exact bind_eq_ok_iff.mpr ⟨value, s, hresolve, rfl⟩

theorem valueBy_of_error {e : Failure} (h : Assoc.find? r.values flag.name = none)
    (hresolve : resolve inner flag r = .error e s) : valueBy inner flag r = .error e s := by
  refine bind_eq_error_iff.mpr (.inr ⟨r, r, rfl, ?_⟩)
  rw [h]
  exact bind_eq_error_iff.mpr (.inl hresolve)

theorem valueBy_cases (h : valueBy inner flag r = .ok value s) :
    (Assoc.find? r.values flag.name = some value ∧ s = r) ∨
    (Assoc.find? r.values flag.name = none ∧ ∃ t, resolve inner flag r = .ok value t ∧
      s = { t with values := Assoc.insert t.values flag.name value }) := by
  cases hvalue : Assoc.find? r.values flag.name with
  | some known =>
    rw [valueBy_of_known hvalue] at h
    cases h
    exact .inl ⟨rfl, rfl⟩
  | none =>
    cases hresolve : resolve inner flag r with
    | ok found t =>
      rw [valueBy_of_resolve hvalue hresolve] at h
      cases h
      exact .inr ⟨rfl, t, rfl, rfl⟩
    | error e t =>
      rw [valueBy_of_error hvalue hresolve] at h
      cases h

theorem valueBy_ok (h : valueBy inner flag r = .ok value s) : Assoc.find? s.values flag.name = some value := by
  rcases valueBy_cases h with ⟨hvalue, rfl⟩ | ⟨-, t, -, rfl⟩
  · exact hvalue
  · rw [Assoc.find?_insert, if_pos rfl]

/-- The value that is entered at last may take the place of one that a factory has entered in between. -/
theorem Reads.withValue (h : Reads asked r s) (hnone : Assoc.find? r.values used.name = none)
    (hserves : r.Serves asked used flag) (hgives : used.Gives s value) :
    Reads asked r { s with values := Assoc.insert s.values used.name value } := by
  refine { h with values := fun {name known} hknown => ?_, origin := fun hnamed {name known} hunknown hknown => ?_ }
  · have hname : name ≠ used.name := by
      rintro rfl
      rw [hnone] at hknown
      cases hknown
    rw [Assoc.find?_insert, if_neg hname]
    exact h.values hknown
  · rw [Assoc.find?_insert] at hknown
    by_cases hname : name = used.name
    · rw [if_pos hname] at hknown
      cases hknown
      obtain ⟨given, hregistered, hgiven⟩ := hserves.registered
      obtain rfl : given = name := (hgiven hnamed).trans hname.symm
      exact ⟨flag, used, h.flags hregistered, hname.symm, hserves.kind, hserves.known, hgives⟩
    · rw [if_neg hname] at hknown
      exact h.origin hnamed hunknown hknown

theorem Access.Reads.valueBy (hinner : (access depth).Reads) (hserves : r.Serves asked used flag) :
    Registry.Reads asked r (endState (Registry.valueBy (access depth) used) r) := by
  cases hvalue : Assoc.find? r.values used.name with
  | some known =>
    rw [endState_of_ok (valueBy_of_known hvalue)]
    exact .refl _ r
  | none =>
    obtain ⟨hreads, hgives⟩ := hinner.resolve hvalue hserves
    cases hresolve : Registry.resolve (access depth) used r with
    | ok value s =>
      rw [endState_of_ok hresolve] at hreads
      rw [endState_of_ok (valueBy_of_resolve hvalue hresolve)]
      exact hreads.withValue hvalue hserves (hgives value s hresolve)
    | error e s =>
      rw [endState_of_error hresolve] at hreads
      rwa [endState_of_error (valueBy_of_error hvalue hresolve)]

/-! ### Reading -/

theorem readBy_of_known {agrees : Flag → Bool} {known : Flag} (h : Assoc.find? r.flags flag.name = some known)
    (hagrees : agrees known = true) : readBy inner flag agrees r = valueBy inner flag r := by
  show (match Assoc.find? r.flags flag.name with
    | some known => if agrees known then Registry.valueBy inner flag else raise (.duplicateFlag flag.name)
    | none => _ : RegistryM FlagValue) r = _
  rw [h]
  simp only [if_pos hagrees]

theorem readBy_of_refused {agrees : Flag → Bool} {known : Flag} (h : Assoc.find? r.flags flag.name = some known)
    (hagrees : agrees known = false) : readBy inner flag agrees r = .error (.of (.duplicateFlag flag.name)) r := by
  show (match Assoc.find? r.flags flag.name with
    | some known => if agrees known then Registry.valueBy inner flag else raise (.duplicateFlag flag.name)
    | none => _ : RegistryM FlagValue) r = _
  rw [h]
  simp only [hagrees]
  rfl

theorem readBy_of_new {agrees : Flag → Bool} (h : Assoc.find? r.flags flag.name = none) (hopen : r.locked = none) :
    readBy inner flag agrees r =
      valueBy inner flag { r with flags := Assoc.insert r.flags flag.name flag } := by
  have hregister : register flag r = .ok () { r with flags := Assoc.insert r.flags flag.name flag } := by
    rw [register_eq, if_neg (by simp [hopen])]
    simp only [h]
  show (match Assoc.find? r.flags flag.name with
    | some known => if agrees known then Registry.valueBy inner flag else raise (.duplicateFlag flag.name)
    | none => do
      if r.locked.isSome then raise (.readAfterLock flag.name)
      register flag
      Registry.valueBy inner flag : RegistryM FlagValue) r = _
  rw [h, hopen]
  show EStateM.bind (register flag) _ r = _
  rw [EStateM.bind, hregister, hopen]

theorem readBy_of_late {agrees : Flag → Bool} (h : Assoc.find? r.flags flag.name = none) (hlocked : r.locked.isSome) :
    readBy inner flag agrees r = .error (.of (.readAfterLock flag.name)) r := by
  refine bind_eq_error_iff.mpr (.inr ⟨r, r, rfl, ?_⟩)
  simp only [h, hlocked]
  rfl

theorem factory_of_same {a b : Flag} (h : a.same b = true) : b.kind = a.kind ∧ b.factory = a.factory := by
  simp only [Flag.same, Bool.and_eq_true, beq_iff_eq] at h
  exact ⟨h.1.1.1.1.1.symm, h.2.symm⟩

theorem Access.Reads.readBy (hinner : (access depth).Reads) {agrees : Flag → Bool}
    (hagrees : ∀ known, agrees known = true → flag.kind = known.kind ∧ flag.factory = known.factory) :
    Keeps (Registry.Reads (· ∈ [flag])) (Registry.readBy (access depth) flag agrees) := by
  intro r
  have hasked : flag ∈ [flag] := List.mem_cons_self
  cases hknown : Assoc.find? r.flags flag.name with
  | some known =>
    cases hsame : agrees known with
    | true =>
      rw [endState, readBy_of_known hknown hsame, ← endState]
      obtain ⟨hkind, hfactory⟩ := hagrees known hsame
      exact hinner.valueBy ⟨⟨flag.name, hknown, fun _ => rfl⟩, hkind, hfactory, .inr (.inl hasked)⟩
    | false =>
      rw [endState_of_error (readBy_of_refused hknown hsame)]
      exact .refl _ r
  | none =>
    cases hlocked : r.locked with
    | some locked =>
      rw [endState_of_error (readBy_of_late hknown (Option.isSome_of_eq_some hlocked))]
      exact .refl _ r
    | none =>
      have hfirst : Registry.Reads (· ∈ [flag]) r (endState (register flag) r) := reads_register hasked r
      have hregister : register flag r = .ok () { r with flags := Assoc.insert r.flags flag.name flag } := by
        rw [register_eq, if_neg (by simp [hlocked])]
        simp only [hknown]
      rw [endState_of_ok hregister] at hfirst
      rw [endState, readBy_of_new hknown hlocked, ← endState]
      have hnow : Assoc.find? (Assoc.insert r.flags flag.name flag) flag.name = some flag := by
        rw [Assoc.find?_insert, if_pos rfl]
      exact hfirst.trans (hinner.valueBy ⟨⟨flag.name, hnow, fun _ => rfl⟩, rfl, rfl, .inr (.inl hasked)⟩)

theorem Serves.self (asked : Flag → Prop) {name : String} (hflag : Assoc.find? r.flags name = some flag) :
    r.Serves asked flag flag :=
  ⟨⟨name, hflag, fun hnamed => (hnamed hflag).symm⟩, rfl, rfl, .inl ⟨name, hflag⟩⟩

theorem Access.Reads.readVia (hinner : (access depth).Reads) (reference : FlagReference) :
    Keeps (Registry.Reads (· ∈ reference.mentioned)) (Registry.readVia (access depth) reference) := by
  cases reference with
  | definition flag => exact hinner.readBy fun known => factory_of_same
  | handle flag =>
    refine hinner.readBy fun known h => ?_
    rcases Bool.or_eq_true_iff.mp h with hsame | heq
    · exact factory_of_same hsame
    · rw [of_decide_eq_true heq]
      exact ⟨rfl, rfl⟩
  | name name =>
    intro r
    rw [Registry.readVia, endState_get_bind]
    cases hflag : Assoc.find? r.flags name with
    | some flag => exact hinner.valueBy (.self _ hflag)
    | none => exact .refl _ r

theorem endState_checkLengths (flag : Flag) (values : List FlagValue) (r : Registry) :
    endState (checkLengths flag values) r = r := by
  unfold checkLengths
  split <;> rfl

theorem Access.Reads.infoFor (hinner : (access depth).Reads) (asked : Flag → Prop) (name : String) :
    Keeps (Registry.Reads asked) (Registry.infoFor (access depth) name) := by
  intro r
  rw [Registry.infoFor, endState_get_bind]
  cases hflag : Assoc.find? r.flags name with
  | none => exact .refl _ r
  | some flag =>
    show Registry.Reads asked r (endState (checkLengths flag flag.allowed >>= _) r)
    have hsame := endState_checkLengths flag flag.allowed r
    cases hallowed : checkLengths flag flag.allowed r with
    | error e s =>
      rw [endState_of_error hallowed] at hsame
      rw [endState_bind_of_error hallowed, hsame]
      exact .refl _ r
    | ok _ s =>
      rw [endState_of_ok hallowed] at hsame
      rw [endState_bind_of_ok hallowed, hsame, endState_bind_quiet]
      · exact hinner.valueBy (.self _ hflag)
      · intro value t
        rw [endState_bind_quiet fun _ _ => rfl, endState_checkLengths]

theorem Access.Reads.infoVia (hinner : (access depth).Reads) (asked : Flag → Prop) :
    Keeps (Registry.Reads asked) (Registry.infoVia (access depth)) := fun r =>
  Keeps.mapM (Reads.lasting asked) (fun name _ => hinner.infoFor asked name) r

/-- However deep factories call each other, what they do is reading. -/
theorem reads_access (depth : Nat) : (access depth).Reads := by
  induction depth with
  | zero => exact ⟨fun _ r => .refl _ r, fun r => .refl _ r⟩
  | succ depth ih => exact ⟨ih.readVia, ih.infoVia _⟩

theorem reads_read (reference : FlagReference) : Keeps (Reads (· ∈ reference.mentioned)) (read reference) :=
  (reads_access nestingLimit).readVia reference

theorem reads_infoFor (asked : Flag → Prop) (name : String) : Keeps (Reads asked) (infoFor factoryAccess name) :=
  (reads_access nestingLimit).infoFor asked name

theorem reads_info (asked : Flag → Prop) : Keeps (Reads asked) info := (reads_access nestingLimit).infoVia asked

theorem reads_settle (asked : Flag → Prop) : Keeps (Reads asked) settle := by
  refine (reads_info asked).bind (Reads.lasting asked) fun table => ?_
  split
  · exact .throw (Reads.lasting asked) _
  · exact .pure (Reads.lasting asked) _

end Registry

end BuildPlan
