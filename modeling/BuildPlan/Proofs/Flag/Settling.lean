import BuildPlan.Proofs.Flag.Preparation

/-!
# Locking in any order

What locking a registry comes to is a function of its definitions, `Flag.settled`, whatever the order in which they
came and whatever has been read of them before: the first flag without a value counts, else the first one with a value
that it may not have, and else all values are recorded in the order of their names.
-/

namespace BuildPlan

namespace Flag

variable {flag : Flag} {flags : List Flag} {outcomes : Outcomes} {r : Registry}

/-- What the definition mentions has no more digits than can be written. -/
structure Writable (outcomes : Outcomes) (flag : Flag) : Prop where
  allowed : ∀ value ∈ flag.allowed, flag.isTooLong value = false
  fallback : ∀ value, flag.fallback outcomes = .ok (some value) → flag.isTooLong value = false

/-- What is recorded of the flag in a run, or why it has no value. -/
def recorded (outcomes : Outcomes) (r : Registry) (flag : Flag) : Except Failure (String × FlagInfo) :=
  (flag.resolved outcomes r).map fun value => (flag.name, flag.infoOf value)

/-- What locking comes to when the flags have these values. -/
def checked (table : Assoc String FlagInfo) : Except Failure LockedFlags :=
  match Registry.firstDisallowed table with
  | some (name, i) => .error (.of (.disallowedFlagValue name i.value i.allowed))
  | none => .ok ⟨configHash (table.map fun (name, i) => (name, i.value)), table⟩

/-- What locking a registry with these definitions comes to. -/
def settled (outcomes : Outcomes) (r : Registry) (flags : List Flag) : Except Failure LockedFlags :=
  (Text.sortOn (·.name) flags).mapM (recorded outcomes r) >>= checked

/-- The flag may have the value: its text is one of those that are allowed, if any are. -/
def Allows (flag : Flag) (value : FlagValue) : Prop :=
  flag.allowedTexts = [] ∨ flag.format value ∈ flag.allowedTexts

theorem Writable.isTooLong_of_resolved (h : flag.Writable outcomes) {value : FlagValue}
    (hvalue : flag.resolved outcomes r = .ok value) : flag.isTooLong value = false := by
  unfold resolved at hvalue
  split at hvalue
  case h_1 text _ =>
    cases hparse : flag.parse text with
    | ok found =>
      rw [hparse] at hvalue
      cases hvalue
      exact isTooLong_of_parse hparse
    | error cause =>
      rw [hparse] at hvalue
      cases hvalue
  case h_2 =>
    split at hvalue
    case h_1 found hfound =>
      cases hvalue
      exact h.fallback _ hfound
    · cases hvalue
    · cases hvalue

end Flag

namespace Registry

variable {r start : Registry} {flag : Flag} {flags : List Flag} {outcomes : Outcomes} {inner : Access}

/-! ### What a registry answers -/

theorem answer_defaultValue (hconstant : r.Constant outcomes) (flag : Flag) :
    answer (defaultValue inner flag) r = flag.fallback outcomes := by
  unfold Flag.fallback
  cases hfactory : flag.factory with
  | none => rw [answer_of_ok (defaultValue_of_none hfactory r), Option.elim_none]
  | some id =>
    rw [answer, defaultValue_of_factory hfactory, hconstant, ← answer, Option.elim_some]
    cases outcomes id <;> rfl

theorem answer_resolve (inner : Access) (hconstant : r.Constant outcomes) (flag : Flag) :
    answer (resolve inner flag) r = flag.resolved outcomes r := by
  unfold Flag.resolved
  cases htext : r.textFor? flag.name with
  | some text =>
    rw [answer, resolve_of_text htext, ← answer]
    simp only
    cases flag.parse text <;> rfl
  | none =>
    rw [answer, resolve_of_default htext, ← answer, answer_bind (g := fun found =>
      found.elim (.error (.of (.missingFlagValue flag.name))) .ok), answer_defaultValue hconstant]
    · rcases flag.fallback outcomes with failure | (_ | value) <;> rfl
    · intro found t _
      cases found <;> rfl

/-- The registry knows nothing but that of some definitions, and it knows all of them. -/
structure Enrols (flags : List Flag) (outcomes : Outcomes) (start r : Registry) : Prop
    extends Draws flags outcomes start r where
  found : ∀ flag ∈ flags, Assoc.find? r.flags flag.name = some flag

section

variable (hconstant : start.Constant outcomes) (h : Enrols flags outcomes start r) (hnames : (flags.map (·.name)).Nodup)

include hconstant h

theorem Enrols.infoFor (name : String) :
    Enrols flags outcomes start (endState (infoFor factoryAccess name) r) := by
  have hreads := reads_infoFor (fun _ => False) name r
  exact ⟨h.reads hconstant hreads fun _ => False.elim, fun flag hflag => hreads.flags (h.found flag hflag)⟩

include hnames

theorem Enrols.answer_valueBy (inner : Access) (hflag : flag ∈ flags) :
    answer (valueBy inner flag) r = flag.resolved outcomes start := by
  cases hvalue : Assoc.find? r.values flag.name with
  | some value =>
    rw [answer_of_ok (valueBy_of_known hvalue)]
    obtain ⟨known, hknown, hname, hresolved⟩ := h.value hvalue
    rw [List.inj_on_of_nodup_map hnames hknown hflag hname] at hresolved
    rw [hresolved]
  | none =>
    rw [← resolved_of_sound h.sound, ← answer_resolve inner (Constant.of_sound hconstant h.sound)]
    cases hresolve : resolve inner flag r with
    | ok value s => rw [answer_of_ok (valueBy_of_resolve hvalue hresolve), answer_of_ok hresolve]
    | error e s => rw [answer_of_error (valueBy_of_error hvalue hresolve), answer_of_error hresolve]

theorem Enrols.answer_infoFor (hflag : flag ∈ flags) (hwritable : flag.Writable outcomes) :
    answer (Registry.infoFor inner flag.name) r = flag.recorded outcomes start := by
  have hallowed := checkLengths_of_short hwritable.allowed r
  have hvalue := h.answer_valueBy hconstant hnames inner hflag
  unfold Flag.recorded
  cases hresolved : flag.resolved outcomes start with
  | error failure =>
    rw [hresolved] at hvalue
    obtain ⟨s, hvalue⟩ := answer_eq_error_iff.mp hvalue
    refine answer_eq_error_iff.mpr ⟨s, bind_eq_error_iff.mpr (.inr ⟨r, r, rfl, ?_⟩)⟩
    rw [h.found flag hflag]
    refine bind_eq_error_iff.mpr (.inr ⟨(), r, hallowed, ?_⟩)
    exact bind_eq_error_iff.mpr (.inl hvalue)
  | ok value =>
    rw [hresolved] at hvalue
    obtain ⟨s, hvalue⟩ := answer_eq_ok_iff.mp hvalue
    refine answer_eq_ok_iff.mpr ⟨s, bind_eq_ok_iff.mpr ⟨r, r, rfl, ?_⟩⟩
    rw [h.found flag hflag]
    refine bind_eq_ok_iff.mpr ⟨(), r, hallowed, bind_eq_ok_iff.mpr ⟨value, s, hvalue, ?_⟩⟩
    have hlength := checkLengths_of_short (List.forall_mem_singleton.mpr (hwritable.isTooLong_of_resolved hresolved)) s
    exact bind_eq_ok_iff.mpr ⟨(), s, hlength, rfl⟩

theorem Enrols.answer_mapM_infoFor (hwritable : ∀ flag ∈ flags, flag.Writable outcomes) {chosen : List Flag}
    (hchosen : ∀ flag ∈ chosen, flag ∈ flags) :
    answer ((chosen.map (·.name)).mapM (Registry.infoFor factoryAccess)) r =
      chosen.mapM (Flag.recorded outcomes start) := by
  induction chosen generalizing r with
  | nil => rfl
  | cons flag rest ih =>
    obtain ⟨hflag, hrest⟩ := List.forall_mem_cons.mp hchosen
    rw [List.map_cons, List.mapM_cons, List.mapM_cons]
    rw [answer_bind (g := fun entry =>
      rest.mapM (Flag.recorded outcomes start) >>= fun entries => pure (entry :: entries))]
    · rw [h.answer_infoFor hconstant hnames hflag (hwritable flag hflag)]
    · intro entry s hentry
      have hafter := h.infoFor hconstant flag.name
      rw [endState_of_ok hentry] at hafter
      rw [answer_bind (g := fun entries => pure (entry :: entries)) fun _ _ _ => rfl, ih hafter hrest]

omit hconstant in
theorem Enrols.names : r.names = (Text.sortOn (·.name) flags).map (·.name) := by
  have hperm : (Assoc.keys r.flags).Perm (flags.map (·.name)) := by
    refine (List.perm_ext_iff_of_nodup h.nodup hnames).mpr fun name => ?_
    constructor
    · intro hname
      obtain ⟨flag, hfound⟩ := Assoc.exists_find?_of_mem_keys hname
      obtain rfl := h.sound.named hfound
      exact List.mem_map_of_mem (h.flag hfound)
    · intro hname
      obtain ⟨flag, hflag, rfl⟩ := List.mem_map.mp hname
      exact Assoc.mem_keys_of_find? (h.found flag hflag)
  have hsorted : (flags.map (·.name)).Perm ((Text.sortOn (·.name) flags).map (·.name)) :=
    ((Text.sortOn_perm (·.name) flags).symm).map (·.name)
  refine Text.sortTexts_eq_of_perm (hperm.trans hsorted) ?_
  exact List.pairwise_map.mpr (Text.pairwise_sortOn (·.name) flags)

theorem Enrols.answer_settle (hwritable : ∀ flag ∈ flags, flag.Writable outcomes) :
    answer settle r = Flag.settled outcomes start flags := by
  have hinfo : answer info r = (Text.sortOn (·.name) flags).mapM (Flag.recorded outcomes start) := by
    show answer (r.names.mapM (Registry.infoFor factoryAccess)) r = _
    rw [h.names hnames]
    exact h.answer_mapM_infoFor hconstant hnames hwritable fun flag hflag => Text.mem_sortOn.mp hflag
  rw [settle, answer_bind (g := Flag.checked), hinfo, Flag.settled]
  intro table s _
  unfold Flag.checked
  cases firstDisallowed table <;> rfl

end

end Registry

/-- After requests that prepare some definitions, the registry knows them and nothing else. -/
theorem Settings.enrols_serveAll (commandLine remembered : Assoc String String)
    (factories : Assoc String FactoryBehavior) (store : Store) {flags : List Flag} {outcomes : Outcomes}
    (hconstant : (opened commandLine remembered factories store).registry.Constant outcomes)
    (hnames : (flags.map (·.name)).Nodup) {requests : List FlagRequest} (h : Prepares flags requests) :
    Registry.Enrols flags outcomes (opened commandLine remembered factories store).registry
      ((opened commandLine remembered factories store).serveAll requests).registry := by
  have hstart := Registry.Draws.opened outcomes flags commandLine remembered factories store
  obtain ⟨hdraws, hfound⟩ := draws_serveAll hconstant hstart hnames h.taken h.unlocked
  refine ⟨hdraws, fun flag hflag => ?_⟩
  obtain ⟨request, hrequest, hmentions⟩ := h.complete flag hflag
  exact hfound request hrequest flag hflag hmentions

theorem Settings.answer_lock_none {s : Settings} (h : s.registry.locked = none) :
    answer (lock none) s = answer Registry.settle s.registry := by
  cases hsettle : Registry.settle s.registry with
  | ok locked registry =>
    rw [answer_of_ok hsettle]
    exact answer_eq_ok_iff.mpr ⟨_, (lock_eq_ok_iff h).mpr ⟨registry, s.store, hsettle, remember_none _ _, rfl⟩⟩
  | error e registry =>
    rw [answer_of_error hsettle]
    exact answer_eq_error_iff.mpr ⟨_, (lock_eq_error_iff h).mpr (.inl ⟨registry, hsettle, rfl⟩)⟩

theorem Settings.answer_lock_of_error {s : Settings} (h : s.registry.locked = none) (file : Option String)
    {e : Failure} (he : answer Registry.settle s.registry = .error e) : answer (lock file) s = .error e := by
  obtain ⟨registry, hsettle⟩ := answer_eq_error_iff.mp he
  exact answer_eq_error_iff.mpr ⟨_, (lock_eq_error_iff h).mpr (.inl ⟨registry, hsettle, rfl⟩)⟩

/-! ### What settling comes to -/

namespace Flag

variable {flag : Flag} {flags : List Flag} {outcomes : Outcomes} {r : Registry}

theorem pairwise_name_sortOn (hnames : (flags.map (·.name)).Nodup) :
    ((Text.sortOn (·.name) flags).map (·.name)).Pairwise (· < ·) := by
  have hle : ((Text.sortOn (·.name) flags).map (·.name)).Pairwise (· ≤ ·) :=
    List.pairwise_map.mpr (Text.pairwise_sortOn (·.name) flags)
  have hne := ((Text.sortOn_perm (·.name) flags).map (·.name)).nodup_iff.mpr hnames
  refine (hle.and hne).imp fun {a b} h => String.not_le.mp fun hge => h.2 (String.le_antisymm h.1 hge)

theorem exists_sortOn_eq_append (hnames : (flags.map (·.name)).Nodup) (hflag : flag ∈ flags) :
    ∃ before after, Text.sortOn (·.name) flags = before ++ flag :: after ∧
      ∀ other ∈ before, other ∈ flags ∧ other.name < flag.name := by
  have hmem : flag ∈ Text.sortOn (·.name) flags := Text.mem_sortOn.mpr hflag
  obtain ⟨before, after, hsplit⟩ := List.append_of_mem hmem
  have hsorted := List.pairwise_map.mp (pairwise_name_sortOn hnames)
  rw [hsplit, List.pairwise_append] at hsorted
  refine ⟨before, after, hsplit, fun other hother => ⟨?_, hsorted.2.2 other hother flag List.mem_cons_self⟩⟩
  refine Text.mem_sortOn.mp (?_ : other ∈ Text.sortOn (·.name) flags)
  rw [hsplit]
  exact List.mem_append_left _ hother

theorem mapM_recorded_of_error {failure : Failure} {before after : List Flag}
    (hbefore : ∀ other ∈ before, ∃ value, other.resolved outcomes r = .ok value)
    (h : flag.resolved outcomes r = .error failure) :
    (before ++ flag :: after).mapM (recorded outcomes r) = .error failure := by
  induction before with
  | nil =>
    rw [List.nil_append, List.mapM_cons, recorded, h]
    rfl
  | cons first rest ih =>
    obtain ⟨⟨value, hfirst⟩, hrest⟩ := List.forall_mem_cons.mp hbefore
    rw [List.cons_append, List.mapM_cons, recorded, hfirst, ih hrest]
    rfl

variable {value : Flag → FlagValue}

theorem mapM_recorded_of_ok {chosen : List Flag}
    (h : ∀ flag ∈ chosen, flag.resolved outcomes r = .ok (value flag)) :
    chosen.mapM (recorded outcomes r) =
      .ok (chosen.map fun flag => (flag.name, flag.infoOf (value flag))) := by
  induction chosen with
  | nil => rfl
  | cons flag rest ih =>
    obtain ⟨hflag, hrest⟩ := List.forall_mem_cons.mp h
    rw [List.mapM_cons, recorded, hflag, ih hrest]
    rfl

theorem not_allows_iff {given : FlagValue} :
    (!(flag.infoOf given).allowed.isEmpty && !(flag.infoOf given).allowed.contains (flag.infoOf given).value) = true ↔
      ¬ flag.Allows given := by
  simp [infoOf, Allows]

end Flag

/-- What locking records of flags with these values: a table in the order of the names, and the checksum of the
texts. -/
structure LockedFlags.Records (flags : List Flag) (value : Flag → FlagValue) (locked : LockedFlags) : Prop where
  ascending : (Assoc.keys locked.info).Pairwise (· < ·)
  entries : ∀ name info, (name, info) ∈ locked.info ↔ ∃ flag ∈ flags, flag.name = name ∧ info = flag.infoOf (value flag)
  allowed : ∀ name info, (name, info) ∈ locked.info → info.allowed = [] ∨ info.value ∈ info.allowed
  hash : locked.hash = hexChecksum ("#".intercalate (Text.sortTexts
    (flags.map fun flag => flag.name ++ "=" ++ flag.format (value flag))))

namespace Flag

variable {flag : Flag} {flags : List Flag} {outcomes : Outcomes} {r : Registry} {value : Flag → FlagValue}

theorem settled_of_error (hnames : (flags.map (·.name)).Nodup) (hflag : flag ∈ flags) {failure : Failure}
    (h : flag.resolved outcomes r = .error failure)
    (hearlier : ∀ other ∈ flags, other.name < flag.name → ∃ value, other.resolved outcomes r = .ok value) :
    settled outcomes r flags = .error failure := by
  obtain ⟨before, after, hsplit, hbefore⟩ := exists_sortOn_eq_append hnames hflag
  rw [settled, hsplit, mapM_recorded_of_error (fun other hother => ?_) h]
  · rfl
  · exact hearlier other (hbefore other hother).1 (hbefore other hother).2

theorem settled_eq_checked (h : ∀ flag ∈ flags, flag.resolved outcomes r = .ok (value flag)) :
    settled outcomes r flags =
      checked ((Text.sortOn (·.name) flags).map fun flag => (flag.name, flag.infoOf (value flag))) := by
  rw [settled, mapM_recorded_of_ok fun flag hflag => h flag (Text.mem_sortOn.mp hflag)]
  rfl

theorem settled_of_disallowed (hnames : (flags.map (·.name)).Nodup)
    (h : ∀ flag ∈ flags, flag.resolved outcomes r = .ok (value flag)) (hflag : flag ∈ flags)
    (hdisallowed : ¬ flag.Allows (value flag))
    (hearlier : ∀ other ∈ flags, other.name < flag.name → other.Allows (value other)) :
    settled outcomes r flags =
      .error (.of (.disallowedFlagValue flag.name (flag.format (value flag)) flag.allowedTexts)) := by
  obtain ⟨before, after, hsplit, hbefore⟩ := exists_sortOn_eq_append hnames hflag
  have hfirst : Registry.firstDisallowed
      ((Text.sortOn (·.name) flags).map fun flag => (flag.name, flag.infoOf (value flag))) =
        some (flag.name, flag.infoOf (value flag)) := by
    rw [hsplit, List.map_append, List.map_cons]
    refine List.find?_eq_some_iff_append.mpr ⟨not_allows_iff.mpr hdisallowed, _, _, rfl, fun entry hentry => ?_⟩
    obtain ⟨other, hother, rfl⟩ := List.mem_map.mp hentry
    rw [Bool.not_eq_true']
    refine Bool.eq_false_iff.mpr fun hrefused => not_allows_iff.mp hrefused ?_
    exact hearlier other (hbefore other hother).1 (hbefore other hother).2
  rw [settled_eq_checked h, checked, hfirst]
  rfl

theorem settled_of_allowed (hnames : (flags.map (·.name)).Nodup)
    (h : ∀ flag ∈ flags, flag.resolved outcomes r = .ok (value flag))
    (hallowed : ∀ flag ∈ flags, flag.Allows (value flag)) :
    ∃ locked, settled outcomes r flags = .ok locked ∧ locked.Records flags value := by
  have hnone : Registry.firstDisallowed
      ((Text.sortOn (·.name) flags).map fun flag => (flag.name, flag.infoOf (value flag))) = none := by
    refine List.find?_eq_none.mpr fun entry hentry => ?_
    obtain ⟨flag, hflag, rfl⟩ := List.mem_map.mp hentry
    exact fun hrefused => not_allows_iff.mp hrefused (hallowed flag (Text.mem_sortOn.mp hflag))
  rw [settled_eq_checked h, checked, hnone]
  refine ⟨_, rfl, ?_, ?_, ?_, ?_⟩
  · show (List.map _ (List.map _ _)).Pairwise _
    rw [List.map_map]
    exact pairwise_name_sortOn hnames
  · simp [eq_comm]
  · intro name info hentry
    obtain ⟨flag, hflag, hinfo⟩ := List.mem_map.mp hentry
    cases hinfo
    exact hallowed flag (Text.mem_sortOn.mp hflag)
  · show configHash (List.map _ (List.map _ _)) = _
    rw [configHash, hashInput, List.map_map, List.map_map]
    have hperm := (Text.sortOn_perm (·.name) flags).map fun flag => flag.name ++ "=" ++ flag.format (value flag)
    exact congrArg (fun texts => hexChecksum ("#".intercalate texts)) (Text.sortTexts_eq_sortTexts hperm)

end Flag

/-- **Locking comes to the same in whatever order the flags have been registered and read.** The first flag without a
value is what is wrong, in the order of the names; if all have values, the first one with a value that it may not have;
else the values are recorded. -/
theorem lock_serveAll (commandLine remembered : Assoc String String) (factories : Assoc String FactoryBehavior)
    (store : Store) {outcomes : Outcomes} {flags : List Flag} {requests : List FlagRequest} :
    let start := Settings.opened commandLine remembered factories store
    start.registry.Constant outcomes → (flags.map (·.name)).Nodup → (∀ flag ∈ flags, flag.Writable outcomes) →
    Prepares flags requests →
    (∀ flag ∈ flags, ∀ failure, flag.resolved outcomes start.registry = .error failure →
      (∀ other ∈ flags, other.name < flag.name → ∃ value, other.resolved outcomes start.registry = .ok value) →
      ∀ file, answer (Settings.lock file) (start.serveAll requests) = .error failure) ∧
    (∀ value : Flag → FlagValue, (∀ flag ∈ flags, flag.resolved outcomes start.registry = .ok (value flag)) →
      (∀ flag ∈ flags, ¬ flag.Allows (value flag) →
        (∀ other ∈ flags, other.name < flag.name → other.Allows (value other)) →
        ∀ file, answer (Settings.lock file) (start.serveAll requests) =
          .error (.of (.disallowedFlagValue flag.name (flag.format (value flag)) flag.allowedTexts))) ∧
      ((∀ flag ∈ flags, flag.Allows (value flag)) →
        ∃ locked, answer (Settings.lock none) (start.serveAll requests) = .ok locked ∧ locked.Records flags value)) ∧
    ∀ others, Prepares flags others →
      answer (Settings.lock none) (start.serveAll others) = answer (Settings.lock none) (start.serveAll requests) := by
  intro start hconstant hnames hwritable hrequests
  have henrols : ∀ requests, Prepares flags requests →
      Registry.Enrols flags outcomes start.registry (start.serveAll requests).registry := fun requests =>
    Settings.enrols_serveAll commandLine remembered factories store hconstant hnames
  have hanswer : ∀ requests, Prepares flags requests → answer (Settings.lock none) (start.serveAll requests) =
      Flag.settled outcomes start.registry flags := by
    intro requests h
    rw [Settings.answer_lock_none (henrols requests h).locked]
    exact (henrols requests h).answer_settle hconstant hnames hwritable
  have hfails : ∀ failure, Flag.settled outcomes start.registry flags = .error failure →
      ∀ file, answer (Settings.lock file) (start.serveAll requests) = .error failure := by
    intro failure hsettled file
    have hsettle := (henrols requests hrequests).answer_settle hconstant hnames hwritable
    rw [hsettled] at hsettle
    exact Settings.answer_lock_of_error (henrols requests hrequests).locked file hsettle
  refine ⟨fun flag hflag failure herror hearlier => ?_,
    fun value hvalue => ⟨fun flag hflag hother hearlier => ?_, ?_⟩, ?_⟩
  · exact hfails failure (Flag.settled_of_error hnames hflag herror hearlier)
  · exact hfails _ (Flag.settled_of_disallowed hnames hvalue hflag hother hearlier)
  · intro hallowed
    obtain ⟨locked, hsettled, hrecords⟩ := Flag.settled_of_allowed hnames hvalue hallowed
    refine ⟨locked, ?_, hrecords⟩
    rw [hanswer requests hrequests, hsettled]
  · intro others hothers
    rw [hanswer others hothers, hanswer requests hrequests]

/-- A choice, of which a factory gives the default, and a number. -/
def choiceAndNumber : List Flag :=
  [{ kind := .string, name := "mode", allowed := [.string "fast", .string "small"], factory := some "mode" },
    { kind := .int, name := "level" }]

/-- What the factories of the choice do. -/
def choiceFactories : Assoc String FactoryBehavior := [("mode", fun _ => .gives (some (.string "fast")))]

/-- The number is asked for by its name before it is known, and read before it is registered; another definition by its
name is refused. -/
def readEarly : List FlagRequest :=
  [.value (.name "level"), .register choiceAndNumber[0], .value (.definition choiceAndNumber[1]), .info,
    .value (.definition { kind := .bool, name := "level" }), .register choiceAndNumber[1]]

theorem prepares_readEarly : Prepares choiceAndNumber readEarly where
  complete := by decide
  taken before request after hsplit flag hflag hother := by
    have hplaces : ∀ k : Fin readEarly.length, ∀ flag ∈ readEarly[k].mentioned, flag ∉ choiceAndNumber →
        ∃ earlier ∈ readEarly.take k, ∃ known ∈ choiceAndNumber, known ∈ earlier.mentioned ∧
          known.name = flag.name ∧ known.same flag = false := by decide
    have hk : before.length < readEarly.length := by simp [hsplit]
    have hrequest : readEarly[before.length] = request := by simp [List.getElem_of_eq hsplit hk]
    have hbefore : readEarly.take before.length = before := by simp [hsplit]
    rw [← hrequest] at hflag
    rw [← hbefore]
    exact hplaces ⟨before.length, hk⟩ flag hflag hother
  unlocked := by simp [readEarly]

/-- How these factories end; one that is not known gives nothing. -/
def choiceOutcomes : Outcomes := fun id => .ok (if id = "mode" then some (.string "fast") else none)

theorem constant_choiceOutcomes (commandLine : Assoc String String) :
    (Settings.opened commandLine [] choiceFactories {}).registry.Constant choiceOutcomes := by
  intro id call
  by_cases hid : id = "mode"
  · subst hid
    rfl
  · have hnone : Assoc.find? choiceFactories id = none := by simp [choiceFactories, Assoc.find?, Ne.symm hid]
    show ((Assoc.find? choiceFactories id).getD fun _ => .gives none) call = _
    rw [hnone, choiceOutcomes, if_neg hid]
    rfl

theorem lock_serveAll_sample :
    let start := fun level : String => Settings.opened [("level", level)] [] choiceFactories {}
    (∃ locked, answer (Settings.lock none) ((start "07").serveAll readEarly) = .ok locked ∧
      (Assoc.keys locked.info).Pairwise (· < ·) ∧ locked.hash = hexChecksum "level=7#mode=fast") ∧
    answer (Settings.lock none) ((start "x").serveAll readEarly) =
      .error (.of (.invalidInteger "x" "level" .malformed)) := by
  have hnames : (choiceAndNumber.map (·.name)).Nodup := by decide
  have hwritable : ∀ flag ∈ choiceAndNumber, flag.Writable choiceOutcomes := by
    refine List.forall_mem_cons.mpr ⟨⟨by decide, ?_⟩,
      List.forall_mem_cons.mpr ⟨⟨List.forall_mem_nil _, nofun⟩, List.forall_mem_nil _⟩⟩
    intro value h
    cases h
    rfl
  have hlock := fun level =>
    lock_serveAll [("level", level)] [] choiceFactories {} (constant_choiceOutcomes _) hnames hwritable prepares_readEarly
  constructor
  · let value := fun flag : Flag => if flag.kind = .int then FlagValue.int 7 else .string "fast"
    have hvalue : ∀ flag ∈ choiceAndNumber, flag.resolved choiceOutcomes
        (Settings.opened [("level", "07")] [] choiceFactories {}).registry = .ok (value flag) :=
      List.forall_mem_cons.mpr ⟨rfl, List.forall_mem_cons.mpr ⟨by rfl, List.forall_mem_nil _⟩⟩
    have hallowed : ∀ flag ∈ choiceAndNumber, flag.Allows (value flag) :=
      List.forall_mem_cons.mpr ⟨.inr (by decide), List.forall_mem_cons.mpr ⟨.inl rfl, List.forall_mem_nil _⟩⟩
    obtain ⟨locked, hok, hrecords⟩ := ((hlock "07").2.1 value hvalue).2 hallowed
    exact ⟨locked, hok, hrecords.ascending, hrecords.hash.trans (congrArg hexChecksum (by decide +kernel))⟩
  · have herror : choiceAndNumber[1].resolved choiceOutcomes
        (Settings.opened [("level", "x")] [] choiceFactories {}).registry =
          .error (.of (.invalidInteger "x" "level" .malformed)) := by rfl
    refine (hlock "x").1 choiceAndNumber[1] (by decide) _ herror (fun other hother hless => ?_) none
    have hfirst : ∀ other ∈ choiceAndNumber, ¬ other.name < "level" := by decide +kernel
    exact absurd hless (hfirst other hother)

end BuildPlan
