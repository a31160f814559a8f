import BuildPlan.Proofs.Flag.History
import BuildPlan.Proofs.Flag.Settling

/-!
# Values that are there already

A registry may have found out values that another one would find out when it is asked for them (`Registry.Cached`). If
factories are constant and each name is that of one definition only, nothing that the two registries are asked tells
them apart: each operation answers the same, and what one has and the other has not stays a value that it would find out
(`Registry.Cached.inStep_read`, `Registry.Cached.inStep_settle`).
-/

namespace BuildPlan

namespace Registry

variable {pool : List Flag} {outcomes : Outcomes} {r r' s s' : Registry} {flag : Flag} {name : String}
  {value : FlagValue} {inner : Access}

theorem Constant.exists_calls (hconstant : r.Constant outcomes) (inner : Access) (flag : Flag) :
    ∃ calls, endState (resolve inner flag) r = { r with calls } := by
  rw [endState_resolve]
  split
  · exact ⟨r.calls, rfl⟩
  · cases hfactory : flag.factory with
    | none => exact ⟨r.calls, endState_of_ok (defaultValue_of_none hfactory r)⟩
    | some id =>
      rw [endState, defaultValue_of_factory hfactory, hconstant, ← endState]
      cases outcomes id <;> exact ⟨_, rfl⟩

/-- The second registry has the values of some definitions already, where the first one would resolve them. -/
structure Cached (pool : List Flag) (outcomes : Outcomes) (r r' : Registry) : Prop where
  flags : r'.flags = r.flags
  commandLine : r'.commandLine = r.commandLine
  remembered : r'.remembered = r.remembered
  factories : r'.factories = r.factories
  constant : r.Constant outcomes
  locked : r'.locked = r.locked
  registered : ∀ {name flag}, Assoc.find? r.flags name = some flag → flag ∈ pool ∧ flag.name = name
  values : ∀ name, Assoc.find? r'.values name = Assoc.find? r.values name ∨
    (Assoc.find? r.values name = none ∧ ∃ flag ∈ pool, flag.name = name ∧ ∃ value,
      flag.resolved outcomes r = .ok value ∧ Assoc.find? r'.values name = some value)

theorem Cached.constant' (h : Cached pool outcomes r r') : r'.Constant outcomes := by
  intro id call
  rw [behavior_congr h.factories, h.constant]

theorem Cached.withCalls (h : Cached pool outcomes r r') (calls calls' : List FactoryCall) :
    Cached pool outcomes { r with calls } { r' with calls := calls' } :=
  ⟨h.flags, h.commandLine, h.remembered, h.factories, h.constant, h.locked, h.registered, h.values⟩

theorem Cached.insert (h : Cached pool outcomes r r') (name : String) (value : FlagValue) :
    Cached pool outcomes { r with values := Assoc.insert r.values name value }
      { r' with values := Assoc.insert r'.values name value } := by
  refine ⟨h.flags, h.commandLine, h.remembered, h.factories, h.constant, h.locked, h.registered, fun other => ?_⟩
  rw [Assoc.find?_insert, Assoc.find?_insert]
  by_cases hother : other = name
  · rw [if_pos hother, if_pos hother]
    exact .inl rfl
  · rw [if_neg hother, if_neg hother]
    exact h.values other

/-- A registry that has been settled, with success or not, has values that it would have found out later. -/
theorem cached_settle (hconstant : r.Constant outcomes) (hnamed : r.Named)
    (hpool : ∀ {name flag}, Assoc.find? r.flags name = some flag → flag ∈ pool) :
    Cached pool outcomes r (endState settle r) := by
  have hreads := reads_settle (fun _ => False) r
  have hclosed : r.Closed := fun _ _ _ other hmentions => absurd ⟨_, _, hmentions⟩ (hconstant.not_mentions other)
  refine ⟨hreads.quiet hclosed fun _ => False.elim, hreads.commandLine, hreads.remembered, hreads.factories, hconstant,
    hreads.locked, fun hfound => ⟨hpool hfound, hnamed hfound⟩, fun name => ?_⟩
  cases hvalue : Assoc.find? r.values name with
  | some value => exact .inl (hreads.values hvalue)
  | none =>
    cases hafter : Assoc.find? (endState settle r).values name with
    | none => exact .inl rfl
    | some value =>
      obtain ⟨_, used, -, hname, -, hknows, hgives⟩ := hreads.origin hnamed hvalue hafter
      have hmem : used ∈ pool := by
        rcases hknows with ⟨_, hfound⟩ | hnever | hmentions
        · exact hpool hfound
        · exact hnever.elim
        · exact absurd hmentions (hconstant.not_mentions used)
      have hafterConstant : (endState settle r).Constant outcomes := by
        intro id call
        rw [behavior_congr hreads.factories, hconstant]
      have hresolved := Flag.resolved_of_gives hafterConstant hgives
      rw [Flag.resolved, textFor?_congr hreads.commandLine hreads.remembered, ← Flag.resolved] at hresolved
      exact .inr ⟨rfl, used, hmem, hname, value, hresolved, rfl⟩

/-! ### Operations -/

theorem inStep_checkLengths {P : Pace Registry} (flag : Flag) (values : List FlagValue) :
    InStep P (checkLengths flag values) := by
  unfold checkLengths
  split
  · exact .throw _
  · exact .pure _

theorem Cached.inStep_resolve (inner : Access) (flag : Flag) :
    InStep (.related (Cached pool outcomes)) (resolve inner flag) := by
  refine inStep_related_iff.mpr fun {r r'} h => ⟨?_, ?_⟩
  · rw [answer_resolve inner h.constant, answer_resolve inner h.constant', Flag.resolved, Flag.resolved,
      textFor?_congr h.commandLine h.remembered]
  · obtain ⟨calls, hr⟩ := h.constant.exists_calls inner flag
    obtain ⟨calls', hr'⟩ := h.constant'.exists_calls inner flag
    rw [hr, hr']
    exact h.withCalls calls calls'

theorem Cached.inStep_register (hflag : flag ∈ pool) : InStep (.related (Cached pool outcomes)) (register flag) := by
  refine inStep_related_iff.mpr fun {r r'} h => ?_
  unfold answer endState
  rw [register_eq, register_eq, h.locked, h.flags]
  by_cases hlocked : r.locked.isSome
  · rw [if_pos hlocked, if_pos hlocked]
    exact ⟨rfl, h⟩
  · rw [if_neg hlocked, if_neg hlocked]
    cases Assoc.find? r.flags flag.name with
    | some known =>
      by_cases hsame : known.same flag
      · simp only [hsame]
        exact ⟨rfl, h⟩
      · simp only [hsame]
        exact ⟨rfl, h⟩
    | none =>
      refine ⟨rfl, ?_⟩
      simp only
      refine ⟨rfl, h.commandLine, h.remembered, h.factories, h.constant, rfl, fun {name found} hfound => ?_, h.values⟩
      rw [Assoc.find?_insert] at hfound
      split at hfound
      case isTrue hname =>
        cases hfound
        exact ⟨hflag, hname.symm⟩
      case isFalse => exact h.registered hfound

section

variable (hnames : ∀ a ∈ pool, ∀ b ∈ pool, a.name = b.name → a = b)

include hnames

/-- The definition is the only one by its name, so what the second registry has is what the first one finds out. -/
theorem Cached.inStep_valueBy (hflag : flag ∈ pool) :
    InStep (.related (Cached pool outcomes)) (valueBy inner flag) := by
  refine inStep_related_iff.mpr fun {r r'} h => ?_
  rcases h.values flag.name with hsame | ⟨hnone, other, hother, hname, value, hvalue, hknown⟩
  · cases hfound : Assoc.find? r.values flag.name with
    | some value => exact related_of_ok (valueBy_of_known hfound) (valueBy_of_known (hsame.trans hfound)) h
    | none =>
      obtain ⟨hanswer, hstates⟩ := inStep_related_iff.mp (inStep_resolve inner flag) h
      cases hresolve : resolve inner flag r with
      | ok value s =>
        obtain ⟨s', hresolve'⟩ := answer_eq_ok_iff.mp (hanswer.trans (answer_of_ok hresolve))
        rw [endState_of_ok hresolve, endState_of_ok hresolve'] at hstates
        exact related_of_ok (valueBy_of_resolve hfound hresolve)
          (valueBy_of_resolve (hsame.trans hfound) hresolve') (hstates.insert flag.name value)
      | error e s =>
        obtain ⟨s', hresolve'⟩ := answer_eq_error_iff.mp (hanswer.trans (answer_of_error hresolve))
        rw [endState_of_error hresolve, endState_of_error hresolve'] at hstates
        exact related_of_error (valueBy_of_error hfound hresolve)
          (valueBy_of_error (hsame.trans hfound) hresolve') hstates
  · obtain rfl := hnames other hother flag hflag hname
    have hanswer := answer_resolve inner h.constant other
    rw [hvalue] at hanswer
    obtain ⟨s, hresolve⟩ := answer_eq_ok_iff.mp hanswer
    obtain ⟨calls, hcalls⟩ := h.constant.exists_calls inner other
    rw [endState_of_ok hresolve] at hcalls
    subst hcalls
    -- the value that is there already may as well be entered now
    have hentered := (h.withCalls calls r'.calls).insert other.name value
    rw [Assoc.insert_eq_self hknown] at hentered
    exact related_of_ok (valueBy_of_resolve hnone hresolve) (valueBy_of_known hknown) hentered

theorem Cached.inStep_readBy (hflag : flag ∈ pool) (agrees : Flag → Bool) :
    InStep (.related (Cached pool outcomes)) (readBy inner flag agrees) := by
  refine .get_bind (fun _ _ => trivial) fun {r r'} h => ⟨by rw [h.flags, h.locked], ?_⟩
  cases Assoc.find? r.flags flag.name with
  | some known =>
    show InStep _ (if agrees known then valueBy inner flag else raise (.duplicateFlag flag.name))
    split
    · exact inStep_valueBy hnames hflag
    · exact inStep_raise _
  | none =>
    by_cases hlocked : r.locked.isSome
    · simp only [hlocked]
      exact (inStep_raise _).bind fun _ => (inStep_register hflag).bind fun _ => inStep_valueBy hnames hflag
    · simp only [hlocked]
      exact (inStep_register hflag).bind fun _ => inStep_valueBy hnames hflag

theorem Cached.inStep_read {reference : FlagReference} (hmentioned : ∀ flag ∈ reference.mentioned, flag ∈ pool) :
    InStep (.related (Cached pool outcomes)) (read reference) := by
  cases reference with
  | definition flag => exact inStep_readBy hnames (hmentioned flag List.mem_cons_self) _
  | handle flag => exact inStep_readBy hnames (hmentioned flag List.mem_cons_self) _
  | name name =>
    refine .get_bind (fun _ _ => trivial) fun {r r'} h => ⟨by rw [h.flags], ?_⟩
    cases hfound : Assoc.find? r.flags name with
    | some flag => exact inStep_valueBy hnames (h.registered hfound).1
    | none => exact inStep_raise _

theorem Cached.inStep_infoFor (name : String) : InStep (.related (Cached pool outcomes)) (infoFor inner name) := by
  refine .get_bind (fun _ _ => trivial) fun {r r'} h => ⟨by rw [h.flags], ?_⟩
  cases hfound : Assoc.find? r.flags name with
  | none => exact inStep_raise _
  | some flag =>
    refine (inStep_checkLengths flag flag.allowed).bind fun _ => ?_
    refine (inStep_valueBy hnames (h.registered hfound).1).bind fun value => ?_
    exact (inStep_checkLengths flag [value]).bind fun _ => .pure _

theorem Cached.inStep_info : InStep (.related (Cached pool outcomes)) info :=
  inStep_infoVia Cached.flags (Cached.inStep_infoFor hnames)

theorem Cached.inStep_settle : InStep (.related (Cached pool outcomes)) settle :=
  inStep_settle_of_info (Cached.inStep_info hnames)

end

end Registry

end BuildPlan
