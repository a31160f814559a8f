import BuildPlan.Proofs.Flag.Lifecycle
import Mathlib.Data.List.Induction
import Mathlib.Data.List.Nodup
import Mathlib.Data.List.Perm.Basic

/-!
# What a registry has been told

Before a registry is locked, definitions are registered and read in some order (`Prepares`). If factories are constant
(`Registry.Constant`), what it knows then depends on the definitions alone: `Flag.resolved` says what value a definition
has by itself, and `Registry.Draws` that a registry knows nothing but that of some definitions.
-/

namespace BuildPlan

/-- How each factory ends, whenever it is called. -/
abbrev Outcomes := String → Except Failure (Option FlagValue)

/-- Each factory ends in the same way at all its calls, and does not use the registry. -/
def Registry.Constant (r : Registry) (outcomes : Outcomes) : Prop :=
  ∀ id call, r.behavior id call = .ofOutcome (outcomes id)

namespace Flag

variable {flag : Flag} {outcomes : Outcomes} {r s : Registry} {value : FlagValue}

/-- What the definition gives where there is no text for it. -/
def fallback (outcomes : Outcomes) (flag : Flag) : Except Failure (Option FlagValue) :=
  flag.factory.elim (.ok flag.default) outcomes

/-- The value that the definition has in a run, or why it has none: what the command line says, else what is remembered,
else the default, which a factory computes if there is one. -/
def resolved (outcomes : Outcomes) (r : Registry) (flag : Flag) : Except Failure FlagValue :=
  match r.textFor? flag.name with
  | some text => (flag.parse text).mapError .of
  | none =>
    match flag.fallback outcomes with
    | .ok (some value) => .ok value
    | .ok none => .error (.of (.missingFlagValue flag.name))
    | .error failure => .error failure

theorem resolved_of_gives (hconstant : r.Constant outcomes) (h : flag.Gives r value) :
    flag.resolved outcomes r = .ok value := by
  unfold Gives at h
  unfold resolved fallback
  cases htext : r.textFor? flag.name with
  | some text =>
    rw [htext] at h
    simp only [show flag.parse text = .ok value from h]
    rfl
  | none =>
    rw [htext] at h
    cases hfactory : flag.factory with
    | none =>
      rw [hfactory] at h
      simp only [Option.elim_none, show flag.default = some value from h]
    | some id =>
      rw [hfactory] at h
      obtain ⟨before, depth, t, u, -, -, hrun⟩ := h
      rw [hconstant] at hrun
      rw [Option.elim_some]
      cases houtcome : outcomes id with
      | ok given =>
        rw [houtcome] at hrun
        cases hrun
        rfl
      | error failure =>
        rw [houtcome] at hrun
        cases hrun

end Flag

/-- Some requests register all of the flags, in any order, and may read them on the way, but they lock nothing. They may
mention another definition only where the name is taken by one of the flags that does not say the same. -/
structure Prepares (flags : List Flag) (requests : List FlagRequest) : Prop where
  complete : ∀ flag ∈ flags, ∃ request ∈ requests, flag ∈ request.mentioned
  taken : ∀ before request after, requests = before ++ request :: after → ∀ flag ∈ request.mentioned, flag ∉ flags →
    ∃ earlier ∈ before, ∃ known ∈ flags, known ∈ earlier.mentioned ∧ known.name = flag.name ∧ known.same flag = false
  unlocked : ∀ file, .lock file ∉ requests

namespace Registry

variable {r s start : Registry} {flag : Flag} {flags : List Flag} {outcomes : Outcomes} {asked : Flag → Prop}

theorem behavior_of_sound (h : Sound start r) (id : String) : r.behavior id = start.behavior id :=
  behavior_congr h.factories id

theorem Constant.of_sound (hconstant : start.Constant outcomes) (h : Sound start r) : r.Constant outcomes := by
  intro id call
  rw [behavior_of_sound h, hconstant]

theorem resolved_of_sound (h : Sound start r) (flag : Flag) : flag.resolved outcomes r = flag.resolved outcomes start := by
  rw [Flag.resolved, Flag.resolved, textFor?_congr h.commandLine h.remembered]

theorem Constant.not_mentions (h : r.Constant outcomes) (flag : Flag) : ¬ r.Mentions flag := by
  rintro ⟨id, call, hmentions⟩
  rw [h] at hmentions
  exact FactoryProgram.not_mentions_ofOutcome _ flag hmentions

/-! ### What a registry knows -/

/-- The registry is open and knows nothing but that of some definitions: its flags are among them, and its values are
those that they have by themselves. -/
structure Draws (flags : List Flag) (outcomes : Outcomes) (start r : Registry) : Prop where
  sound : Sound start r
  locked : r.locked = none
  nodup : (Assoc.keys r.flags).Nodup
  flag : ∀ {name flag}, Assoc.find? r.flags name = some flag → flag ∈ flags
  value : ∀ {name value}, Assoc.find? r.values name = some value →
    ∃ flag ∈ flags, flag.name = name ∧ flag.resolved outcomes start = .ok value

theorem Draws.opened (outcomes : Outcomes) (flags : List Flag) (commandLine remembered : Assoc String String)
    (factories : Assoc String FactoryBehavior) (store : Store) :
    Draws flags outcomes (Settings.opened commandLine remembered factories store).registry
      (Settings.opened commandLine remembered factories store).registry where
  sound := Settings.sound_opened commandLine remembered factories store
  locked := rfl
  nodup := List.nodup_nil
  flag := nofun
  value := nofun

theorem Draws.reads (hconstant : start.Constant outcomes) (h : Draws flags outcomes start r) (hreads : Reads asked r s)
    (hasked : ∀ flag, asked flag → flag ∈ flags) : Draws flags outcomes start s := by
  have hsound := h.sound.reads hreads
  have hknows : ∀ {flag}, r.Knows asked flag → flag ∈ flags := by
    rintro flag (⟨name, hfound⟩ | hflag | hmentions)
    · exact h.flag hfound
    · exact hasked flag hflag
    · exact absurd hmentions ((Constant.of_sound hconstant h.sound).not_mentions flag)
  refine ⟨hsound, hreads.locked.trans h.locked, hreads.nodup h.nodup, fun {name flag} hfound => ?_,
    fun {name value} hfound => ?_⟩
  · exact hknows (hreads.knows (.inl ⟨name, hfound⟩))
  · cases hknown : Assoc.find? r.values name with
    | some known =>
      cases hfound.symm.trans (hreads.values hknown)
      exact h.value hknown
    | none =>
      obtain ⟨flag, used, -, hname, -, hused, hgives⟩ := hreads.origin h.sound.named hknown hfound
      refine ⟨used, hknows hused, hname, ?_⟩
      rw [← resolved_of_sound hsound]
      exact Flag.resolved_of_gives (Constant.of_sound hconstant hsound) hgives

/-! ### Definitions that are refused -/

/-- The name of the definition is taken by another one that does not say the same. -/
def Refuses (r : Registry) (flag : Flag) : Prop :=
  ∃ known, Assoc.find? r.flags flag.name = some known ∧ known ≠ flag ∧ known.same flag = false

theorem endState_register_of_refuses (h : r.Refuses flag) : endState (register flag) r = r := by
  obtain ⟨known, hknown, -, hother⟩ := h
  rw [endState, register_eq]
  by_cases hlocked : r.locked.isSome <;> simp [hlocked, hknown, hother]

theorem endState_read_of_refuses {reference : FlagReference} (hflag : flag ∈ reference.mentioned) (h : r.Refuses flag) :
    endState (read reference) r = r := by
  obtain ⟨known, hknown, hne, hother⟩ := h
  cases reference with
  | definition given =>
    cases List.mem_singleton.mp hflag
    exact endState_of_error (readBy_of_refused hknown hother)
  | handle given =>
    cases List.mem_singleton.mp hflag
    exact endState_of_error (readBy_of_refused hknown (by simp [hother, hne]))
  | name name => cases hflag

/-! ### Definitions that are entered -/

theorem isSome_find?_register (h : r.locked = none) (flag : Flag) :
    (Assoc.find? (endState (register flag) r).flags flag.name).isSome := by
  rw [endState, register_eq, if_neg (by simp [h])]
  cases hknown : Assoc.find? r.flags flag.name with
  | some known => by_cases hsame : known.same flag <;> simp [hsame, hknown]
  | none => simp [Assoc.find?_insert]

theorem isSome_find?_read (h : r.locked = none) (reference : FlagReference) :
    ∀ flag ∈ reference.mentioned, (Assoc.find? (endState (read reference) r).flags flag.name).isSome := by
  have hgrows := keeps_read reference r
  have hreadBy : ∀ {flag : Flag} {agrees : Flag → Bool},
      Grows r (endState (readBy factoryAccess flag agrees) r) →
      (Assoc.find? (endState (readBy factoryAccess flag agrees) r).flags flag.name).isSome := by
    intro flag agrees hkeeps
    cases hknown : Assoc.find? r.flags flag.name with
    | some known => exact Option.isSome_of_eq_some (hkeeps.flags hknown)
    | none =>
      have hentered : Assoc.find? (Assoc.insert r.flags flag.name flag) flag.name = some flag := by
        rw [Assoc.find?_insert, if_pos rfl]
      have hreads := (reads_access nestingLimit).valueBy (r := { r with flags := Assoc.insert r.flags flag.name flag })
        (.self (fun _ => False) hentered)
      rw [endState, readBy_of_new hknown h, ← endState]
      exact Option.isSome_of_eq_some (hreads.flags hentered)
  cases reference with
  | definition flag => exact List.forall_mem_singleton.mpr (hreadBy hgrows)
  | handle flag => exact List.forall_mem_singleton.mpr (hreadBy hgrows)
  | name name => exact List.forall_mem_nil _

end Registry

namespace Settings

open Registry

variable {s : Settings} {flags : List Flag} {outcomes : Outcomes} {start : Registry}

/-- A request that does not lock anything registers what it mentions, and reads some of the definitions. -/
theorem draws_serve (hconstant : start.Constant outcomes) (h : Draws flags outcomes start s.registry)
    {request : FlagRequest} (hmentioned : ∀ flag ∈ request.mentioned, flag ∈ flags ∨ s.registry.Refuses flag)
    (hlock : ∀ file, request ≠ .lock file) :
    Draws flags outcomes start (endState request.serve s).registry ∧
      ∀ flag ∈ request.mentioned, (Assoc.find? (endState request.serve s).registry.flags flag.name).isSome := by
  cases request with
  | register flag =>
    rw [FlagRequest.serve, endState_bind_quiet fun _ _ => rfl, endState_onRegistry]
    refine ⟨?_, List.forall_mem_singleton.mpr (isSome_find?_register h.locked flag)⟩
    rcases hmentioned flag List.mem_cons_self with hmem | hrefuses
    · exact h.reads hconstant (reads_register (rfl : flag = flag) s.registry) fun other hother => hother ▸ hmem
    · show Draws flags outcomes start (endState (register flag) s.registry)
      rwa [endState_register_of_refuses hrefuses]
  | value reference =>
    rw [FlagRequest.serve, endState_bind_quiet fun _ _ => rfl, endState_onRegistry]
    refine ⟨?_, isSome_find?_read h.locked reference⟩
    show Draws flags outcomes start (endState (read reference) s.registry)
    by_cases hall : ∀ flag ∈ reference.mentioned, flag ∈ flags
    · exact h.reads hconstant (reads_read reference s.registry) hall
    · obtain ⟨flag, hflag, hother⟩ := not_forall₂.mp hall
      have hrefuses := (hmentioned flag hflag).resolve_left hother
      rwa [endState_read_of_refuses hflag hrefuses]
  | info =>
    rw [FlagRequest.serve, endState_bind_quiet fun _ _ => rfl, endState_onRegistry]
    exact ⟨h.reads hconstant (reads_info (fun _ => False) s.registry) fun _ => False.elim, List.forall_mem_nil _⟩
  | lock file => exact absurd rfl (hlock file)

theorem draws_serveAll (hconstant : start.Constant outcomes) (h : Draws flags outcomes start s.registry)
    (hnames : (flags.map (·.name)).Nodup) {requests : List FlagRequest}
    (htaken : ∀ before request after, requests = before ++ request :: after → ∀ flag ∈ request.mentioned,
      flag ∉ flags → ∃ earlier ∈ before, ∃ known ∈ flags, known ∈ earlier.mentioned ∧ known.name = flag.name ∧
        known.same flag = false)
    (hunlocked : ∀ file, .lock file ∉ requests) :
    Draws flags outcomes start (s.serveAll requests).registry ∧
      ∀ request ∈ requests, ∀ flag ∈ flags, flag ∈ request.mentioned →
        Assoc.find? (s.serveAll requests).registry.flags flag.name = some flag := by
  induction requests using List.reverseRecOn with
  | nil => exact ⟨h, List.forall_mem_nil _⟩
  | append_singleton before request ih =>
    obtain ⟨hdraws, hfound⟩ := ih
      (fun earlier other after hsplit => htaken earlier other (after ++ [request]) (by simp [hsplit]))
      fun file hmem => hunlocked file (List.mem_append_left _ hmem)
    have hmentioned : ∀ flag ∈ request.mentioned, flag ∈ flags ∨ (s.serveAll before).registry.Refuses flag := by
      intro flag hflag
      by_cases hmem : flag ∈ flags
      · exact .inl hmem
      · obtain ⟨earlier, hearlier, known, hknown, hmentions, hname, hother⟩ :=
          htaken before request [] rfl flag hflag hmem
        have hfind : Assoc.find? (s.serveAll before).registry.flags flag.name = some known :=
          hname ▸ hfound earlier hearlier known hknown hmentions
        exact .inr ⟨known, hfind, fun heq => hmem (heq ▸ hknown), hother⟩
    have hrequest : ∀ file, request ≠ .lock file := fun file heq => hunlocked file (by simp [heq])
    obtain ⟨hafter, hregistered⟩ := draws_serve hconstant hdraws hmentioned hrequest
    rw [serveAll_append]
    refine ⟨hafter, fun asking hasking flag hflag hmentions => ?_⟩
    rcases List.mem_append.mp hasking with hearlier | hlast
    · exact (continues_serve request _).flags (hfound asking hearlier flag hflag hmentions)
    · rw [List.mem_singleton.mp hlast] at hmentions
      obtain ⟨known, hknown⟩ := Option.isSome_iff_exists.mp (hregistered flag hmentions)
      have hname := hafter.sound.named hknown
      rwa [List.inj_on_of_nodup_map hnames (hafter.flag hknown) hflag hname] at hknown

end Settings

end BuildPlan
