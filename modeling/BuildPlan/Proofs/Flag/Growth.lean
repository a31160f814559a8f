import BuildPlan.Flag.Registry
import BuildPlan.Proofs.State.Keeps
import BuildPlan.Proofs.State.Result

/-!
# What reading flags does

Reading a flag may call its factory, which may register and read flags in its turn. However deep this goes,
`Registry.Reads` says what it can do: flags and values stay, new flags are definitions that have been asked for or that a
factory mentions, each new value comes from a definition of the type of its flag, and factories are called only for flags
that have neither a text nor a value.
-/

namespace BuildPlan

/-- The definitions that a reference mentions. -/
def FlagReference.mentioned : FlagReference → List Flag
  | .definition flag | .handle flag => [flag]
  | .name _ => []

namespace FactoryProgram

/-- How a program may go on after its first operation. -/
inductive Next : FactoryProgram → FactoryProgram → Prop
  | registers {flag next} (result) : Next (.registers flag next) (next result)
  | reads {reference next} (result) : Next (.reads reference next) (next result)
  | describes {next} (result) : Next (.describes next) (next result)
  | looks {next} (names hash) : Next (.looks next) (next names hash)

/-- The program may use the definition. -/
inductive Mentions : FactoryProgram → Flag → Prop
  | registers {flag next} : Mentions (.registers flag next) flag
  | reads {reference next flag} (h : flag ∈ reference.mentioned) : Mentions (.reads reference next) flag
  | later {program rest flag} (hnext : Next program rest) (h : Mentions rest flag) : Mentions program flag

theorem not_mentions_ofOutcome (outcome : Except Failure (Option FlagValue)) (flag : Flag) :
    ¬ (ofOutcome outcome).Mentions flag := by
  intro h
  cases outcome with
  | ok value =>
    cases h with
    | later hnext _ => cases hnext
  | error failure =>
    cases h with
    | later hnext _ => cases hnext

end FactoryProgram

namespace Registry

/-- The value is what a call of a factory has given: the call is one of those that the registry has seen. -/
def Gave (s : Registry) (call : FactoryCall) (value : FlagValue) : Prop :=
  ∃ before depth t u, before ++ [call] <+: s.calls ∧ t.calls = before ++ [call] ∧
    runFactory (access depth) (s.behavior call.factory (before.countP (·.factory = call.factory))) t =
      .ok (some value) u

end Registry

/-- The value comes from the definition in a run: from the command line, else from what is remembered, else from the
default, which a factory computes if there is one. -/
def Flag.Gives (flag : Flag) (s : Registry) (value : FlagValue) : Prop :=
  match s.textFor? flag.name with
  | some text => flag.parse text = .ok value
  | none =>
    match flag.factory with
    | some factory => s.Gave { factory, flag := flag.name } value
    | none => flag.default = some value

namespace Registry

variable {r s : Registry}

theorem textFor?_congr (hcommand : s.commandLine = r.commandLine) (hremembered : s.remembered = r.remembered)
    (name : String) : s.textFor? name = r.textFor? name := by
  rw [textFor?, textFor?, hcommand, hremembered]

theorem behavior_congr (h : s.factories = r.factories) (id : String) : s.behavior id = r.behavior id := by
  rw [behavior, behavior, h]

theorem Gave.mono {call : FactoryCall} {value : FlagValue} (h : r.Gave call value)
    (hfactories : s.factories = r.factories) (hcalls : r.calls <+: s.calls) : s.Gave call value := by
  obtain ⟨before, depth, t, u, hprefix, ht, hrun⟩ := h
  exact ⟨before, depth, t, u, hprefix.trans hcalls, ht, by rwa [behavior_congr hfactories]⟩

end Registry

theorem Flag.Gives.mono {flag : Flag} {r s : Registry} {value : FlagValue} (h : flag.Gives r value)
    (hcommand : s.commandLine = r.commandLine) (hremembered : s.remembered = r.remembered)
    (hfactories : s.factories = r.factories) (hcalls : r.calls <+: s.calls) : flag.Gives s value := by
  unfold Flag.Gives at *
  rw [Registry.textFor?_congr hcommand hremembered]
  revert h
  cases r.textFor? flag.name with
  | some text => exact id
  | none =>
    cases flag.factory with
    | some id => exact fun hgave => hgave.mono hfactories hcalls
    | none => exact id

namespace Registry

variable {r s t : Registry} {asked more : Flag → Prop}

/-- Some factory may use the definition. -/
def Mentions (r : Registry) (flag : Flag) : Prop := ∃ id call, (r.behavior id call).Mentions flag

/-- The definition is registered, or it is asked for, or a factory may use it. -/
def Knows (r : Registry) (asked : Flag → Prop) (flag : Flag) : Prop :=
  (∃ name, Assoc.find? r.flags name = some flag) ∨ asked flag ∨ r.Mentions flag

/-- Every flag is registered by its own name. -/
def Named (r : Registry) : Prop := ∀ {name flag}, Assoc.find? r.flags name = some flag → flag.name = name

/-- Whatever the factory of a registered flag may use is registered as well. -/
def Closed (r : Registry) : Prop :=
  ∀ {name flag id}, Assoc.find? r.flags name = some flag → flag.factory = some id → ∀ call other,
    (r.behavior id call).Mentions other → other.name ∈ Assoc.keys r.flags

/-! ### Growth -/

/-- Flags and values stay, flags stay registered by their own names, what is known of factories stays, and nothing is
locked. -/
structure Grows (r s : Registry) : Prop where
  initial : r.flags <+: s.flags
  values : ∀ {name value}, Assoc.find? r.values name = some value → Assoc.find? s.values name = some value
  learned : ∀ {id behavior}, Assoc.find? r.factories id = some behavior → Assoc.find? s.factories id = some behavior
  named : r.Named → s.Named
  locked : s.locked = r.locked

theorem Grows.lasting : Lasting Grows where
  refl _ := ⟨List.prefix_rfl, id, id, id, rfl⟩
  trans hrs hst := ⟨hrs.initial.trans hst.initial, fun h => hst.values (hrs.values h),
    fun h => hst.learned (hrs.learned h), fun h => hst.named (hrs.named h), hst.locked.trans hrs.locked⟩

theorem Grows.flags (h : Grows r s) {name : String} {flag : Flag} (hflag : Assoc.find? r.flags name = some flag) :
    Assoc.find? s.flags name = some flag := by
  obtain ⟨added, hflags⟩ := h.initial
  rw [← hflags, Assoc.find?_append, hflag]
  rfl

/-- A call of a factory that may come after a registry: no text and no value is known for the flag yet, and the factory
is that of a definition by its name. -/
structure Needs (r : Registry) (asked : Flag → Prop) (call : FactoryCall) : Prop where
  text : r.textFor? call.flag = none
  value : Assoc.find? r.values call.flag = none
  known : ∃ flag, r.Knows asked flag ∧ flag.name = call.flag ∧ flag.factory = some call.factory

/-- What reading comes to when some definitions are asked for. -/
structure Reads (asked : Flag → Prop) (r s : Registry) : Prop extends Grows r s where
  commandLine : s.commandLine = r.commandLine
  remembered : s.remembered = r.remembered
  factories : s.factories = r.factories
  nodup : (Assoc.keys r.flags).Nodup → (Assoc.keys s.flags).Nodup
  enrolled : ∃ added, s.flags = r.flags ++ added ∧ ∀ entry ∈ added, asked entry.2 ∨ r.Mentions entry.2
  quiet : r.Closed → (∀ flag, asked flag → flag.name ∈ Assoc.keys r.flags) → s.flags = r.flags
  late : r.locked.isSome → s.flags = r.flags
  calls : ∃ more, s.calls = r.calls ++ more ∧ ∀ call ∈ more, r.Needs asked call
  origin : r.Named → ∀ {name value}, Assoc.find? r.values name = none → Assoc.find? s.values name = some value →
    ∃ flag used, Assoc.find? s.flags name = some flag ∧ used.name = name ∧ used.kind = flag.kind ∧
      r.Knows asked used ∧ used.Gives s value

theorem Reads.prefix_calls (h : Reads asked r s) : r.calls <+: s.calls := by
  obtain ⟨more, hcalls, -⟩ := h.calls
  exact ⟨more, hcalls.symm⟩

theorem Reads.gives (h : Reads asked r s) {flag : Flag} {value : FlagValue} (hgives : flag.Gives r value) :
    flag.Gives s value := hgives.mono h.commandLine h.remembered h.factories h.prefix_calls

theorem mentions_congr (h : s.factories = r.factories) {flag : Flag} : s.Mentions flag ↔ r.Mentions flag := by
  simp only [Mentions, behavior_congr h]

theorem Closed.congr (h : r.Closed) (hflags : s.flags = r.flags) (hfactories : s.factories = r.factories) :
    s.Closed := by
  intro name flag id hfound hfactory call other hmentions
  rw [behavior_congr hfactories] at hmentions
  rw [hflags] at hfound ⊢
  exact h hfound hfactory call other hmentions

theorem Reads.knows (h : Reads asked r s) {flag : Flag} (hknows : s.Knows asked flag) : r.Knows asked flag := by
  rcases hknows with ⟨name, hfound⟩ | hasked | hmentions
  · obtain ⟨added, hflags, hadded⟩ := h.enrolled
    rw [hflags, Assoc.find?_append, Option.or_eq_some_iff] at hfound
    rcases hfound with hfound | ⟨-, hfound⟩
    · exact .inl ⟨name, hfound⟩
    · exact .inr (hadded _ (Assoc.mem_of_find? hfound))
  · exact .inr (.inl hasked)
  · exact .inr (.inr ((mentions_congr h.factories).mp hmentions))

theorem Reads.needs (h : Reads asked r s) {call : FactoryCall} (hneeds : s.Needs asked call) : r.Needs asked call where
  text := by
    rw [← textFor?_congr h.commandLine h.remembered]
    exact hneeds.text
  value := Option.eq_none_iff_forall_ne_some.mpr fun value hvalue => by
    have hnone := hneeds.value
    rw [h.values hvalue] at hnone
    cases hnone
  known := by
    obtain ⟨flag, hknows, hflag⟩ := hneeds.known
    exact ⟨flag, h.knows hknows, hflag⟩

theorem Reads.refl (asked : Flag → Prop) (r : Registry) : Reads asked r r where
  toGrows := Grows.lasting.refl r
  commandLine := rfl
  remembered := rfl
  factories := rfl
  nodup := id
  enrolled := ⟨[], (List.append_nil _).symm, List.forall_mem_nil _⟩
  quiet _ _ := rfl
  late _ := rfl
  calls := ⟨[], (List.append_nil _).symm, List.forall_mem_nil _⟩
  origin _ {_ _} hnone hsome := by
    rw [hnone] at hsome
    cases hsome

theorem Reads.trans (hrs : Reads asked r s) (hst : Reads asked s t) : Reads asked r t where
  toGrows := Grows.lasting.trans hrs.toGrows hst.toGrows
  commandLine := hst.commandLine.trans hrs.commandLine
  remembered := hst.remembered.trans hrs.remembered
  factories := hst.factories.trans hrs.factories
  nodup h := hst.nodup (hrs.nodup h)
  enrolled := by
    obtain ⟨added, hflags, hadded⟩ := hrs.enrolled
    obtain ⟨more, hflags', hmore⟩ := hst.enrolled
    refine ⟨added ++ more, by rw [hflags', hflags, List.append_assoc], List.forall_mem_append.mpr ⟨hadded, ?_⟩⟩
    exact fun entry hentry => (hmore entry hentry).imp_right (mentions_congr hrs.factories).mp
  quiet hclosed hasked := by
    have hflags := hrs.quiet hclosed hasked
    rw [hst.quiet (hclosed.congr hflags hrs.factories) (by rwa [hflags]), hflags]
  late hlocked := by rw [hst.late (by rwa [hrs.locked]), hrs.late hlocked]
  calls := by
    obtain ⟨calls, hcalls, hnew⟩ := hrs.calls
    obtain ⟨more, hcalls', hmore⟩ := hst.calls
    refine ⟨calls ++ more, by rw [hcalls', hcalls, List.append_assoc], List.forall_mem_append.mpr ⟨hnew, ?_⟩⟩
    exact fun call hcall => hrs.needs (hmore call hcall)
  origin hnamed {name value} hnone hsome := by
    cases hbetween : Assoc.find? s.values name with
    | some known =>
      cases hsome.symm.trans (hst.values hbetween)
      obtain ⟨flag, used, hflag, hname, hkind, hknows, hgives⟩ := hrs.origin hnamed hnone hbetween
      exact ⟨flag, used, hst.flags hflag, hname, hkind, hknows, hst.gives hgives⟩
    | none =>
      obtain ⟨flag, used, hflag, hname, hkind, hknows, hgives⟩ := hst.origin (hrs.named hnamed) hbetween hsome
      exact ⟨flag, used, hflag, hname, hkind, hrs.knows hknows, hgives⟩

theorem Reads.lasting (asked : Flag → Prop) : Lasting (Reads asked) := ⟨Reads.refl asked, Reads.trans⟩

/-- What is asked for may as well be among what factories use, if a closed registry has it. -/
theorem Reads.absorb (h : Reads asked r s) (hmore : ∀ flag, asked flag → more flag ∨ r.Mentions flag)
    (hclosed : r.Closed → (∀ flag, more flag → flag.name ∈ Assoc.keys r.flags) →
      ∀ flag, asked flag → flag.name ∈ Assoc.keys r.flags) : Reads more r s where
  toGrows := h.toGrows
  commandLine := h.commandLine
  remembered := h.remembered
  factories := h.factories
  nodup := h.nodup
  enrolled := by
    obtain ⟨added, hflags, hadded⟩ := h.enrolled
    exact ⟨added, hflags, fun entry hentry => (hadded entry hentry).elim (hmore _) .inr⟩
  quiet hr hall := h.quiet hr (hclosed hr hall)
  late := h.late
  calls := by
    obtain ⟨calls, hcalls, hneeds⟩ := h.calls
    refine ⟨calls, hcalls, fun call hcall => ⟨(hneeds call hcall).text, (hneeds call hcall).value, ?_⟩⟩
    obtain ⟨flag, hknows, hflag⟩ := (hneeds call hcall).known
    exact ⟨flag, hknows.imp_right fun hused => hused.elim (hmore flag) .inr, hflag⟩
  origin hnamed {name value} hnone hsome := by
    obtain ⟨flag, used, hflag, hname, hkind, hknows, hgives⟩ := h.origin hnamed hnone hsome
    exact ⟨flag, used, hflag, hname, hkind, hknows.imp_right fun hused => hused.elim (hmore used) .inr, hgives⟩

theorem Reads.mono (h : Reads asked r s) (hmore : ∀ flag, asked flag → more flag) : Reads more r s :=
  h.absorb (fun flag hasked => .inl (hmore flag hasked)) fun _ hall flag hasked => hall flag (hmore flag hasked)

end Registry

end BuildPlan
