import BuildPlan.Proofs.Flag.Frozen
import BuildPlan.Proofs.Flag.Memory

/-!
# The life of a registry

A `FlagRequest` is anything that can be asked of a registry from outside, and `Settings.serveAll` serves requests one
after another, those that fail among them. Whatever is asked, a flag gets its value once: from the command line, else
from what is remembered, else from the definition that first reads it with success. From then on all answers agree on
it. Once the registry is locked, no flag is registered any more, and what has been recorded is what is described.

The factories of a run are known from the start; each may use the registry in its turn, and may do something else at
each of its calls.
-/

namespace BuildPlan

/-- What can be asked of a registry. -/
inductive FlagRequest where
  | register (flag : Flag)
  | value (reference : FlagReference)
  | info
  | lock (file : Option String)

/-- What a registry answers. -/
inductive FlagReply where
  | registered (flag : Flag)
  | value (name : String) (value : FlagValue)
  | info (table : Assoc String FlagInfo)
  | locked (result : LockedFlags)
  deriving DecidableEq

/-- The name of the flag that a reference leads to. -/
def FlagReference.flagName : FlagReference → String
  | .definition flag | .handle flag => flag.name
  | .name given => given

/-- A request is served. -/
def FlagRequest.serve : FlagRequest → SettingsM FlagReply
  | .register flag => do
    Settings.onRegistry (Registry.register flag)
    return .registered flag
  | .value reference => return .value reference.flagName (← Settings.onRegistry (Registry.read reference))
  | .info => return .info (← Settings.onRegistry Registry.info)
  | .lock file => return .locked (← Settings.lock file)

/-- The definitions that a request mentions. -/
def FlagRequest.mentioned : FlagRequest → List Flag
  | .register flag => [flag]
  | .value reference => reference.mentioned
  | .info | .lock _ => []

/-- An answer agrees with what a registry says. -/
def FlagReply.Agrees (r : Registry) : FlagReply → Prop
  | .registered flag => ∃ known, Assoc.find? r.flags flag.name = some known ∧ (known = flag ∨ known.same flag)
  | .value name found => Assoc.find? r.values name = some found
  | .info table => ∀ entry ∈ table, r.Shows entry
  | .locked result => (∀ entry ∈ result.info, r.Shows entry) ∧ r.locked = some result

namespace Settings

/-- Settings of which nothing has been asked yet. -/
def opened (commandLine remembered : Assoc String String) (factories : Assoc String FactoryBehavior) (store : Store) :
    Settings :=
  { registry := { commandLine, remembered, factories }, store }

/-- The settings after some requests, one after another. -/
def serveAll (s : Settings) (requests : List FlagRequest) : Settings :=
  requests.foldl (fun s request => endState request.serve s) s

/-- What some requests are answered, one after another. -/
def answers (s : Settings) : List FlagRequest → List (Except Failure FlagReply)
  | [] => []
  | request :: rest => answer request.serve s :: (endState request.serve s).answers rest

end Settings

namespace Registry

variable {r s : Registry} {flag : Flag} {value : FlagValue} {reference : FlagReference}

/-! ### Answers -/

theorem register_ok (h : register flag r = .ok () s) :
    ∃ known, Assoc.find? s.flags flag.name = some known ∧ (known = flag ∨ known.same flag) := by
  rw [register_eq] at h
  split at h
  · cases h
  · split at h
    case h_1 known hknown =>
      split at h
      case isTrue hsame =>
        cases h
        exact ⟨known, hknown, .inr hsame⟩
      case isFalse => cases h
    case h_2 =>
      cases h
      refine ⟨flag, ?_, .inl rfl⟩
      rw [Assoc.find?_insert, if_pos rfl]

theorem readBy_ok {inner : Access} {agrees : Flag → Bool} (h : readBy inner flag agrees r = .ok value s) :
    ∃ t, valueBy inner flag t = .ok value s := by
  cases hknown : Assoc.find? r.flags flag.name with
  | some known =>
    cases hagrees : agrees known with
    | true => exact ⟨r, by rwa [readBy_of_known hknown hagrees] at h⟩
    | false =>
      rw [readBy_of_refused hknown hagrees] at h
      cases h
  | none =>
    cases hlocked : r.locked with
    | none => exact ⟨_, by rwa [readBy_of_new hknown hlocked] at h⟩
    | some locked =>
      rw [readBy_of_late hknown (Option.isSome_of_eq_some hlocked)] at h
      cases h

theorem read_ok (hnamed : r.Named) (h : read reference r = .ok value s) :
    Assoc.find? s.values reference.flagName = some value := by
  cases reference with
  | definition flag =>
    obtain ⟨t, hvalue⟩ := readBy_ok h
    exact valueBy_ok hvalue
  | handle flag =>
    obtain ⟨t, hvalue⟩ := readBy_ok h
    exact valueBy_ok hvalue
  | name name =>
    obtain ⟨flag, hflag, hvalue⟩ := read_name_ok h
    obtain rfl := hnamed hflag
    exact valueBy_ok hvalue

/-- What holds of a registry between requests: what it began with, its flags by their names, and, once it is locked,
what was recorded then. -/
structure Sound (start r : Registry) : Prop where
  commandLine : r.commandLine = start.commandLine
  remembered : r.remembered = start.remembered
  factories : r.factories = start.factories
  named : r.Named
  settled : ∀ {locked}, r.locked = some locked → ∀ entry ∈ locked.info, r.Shows entry

/-- What one request after another leaves of a registry, a lock among them. -/
structure Continues (r s : Registry) : Prop where
  initial : r.flags <+: s.flags
  values : ∀ {name value}, Assoc.find? r.values name = some value → Assoc.find? s.values name = some value
  commandLine : s.commandLine = r.commandLine
  remembered : s.remembered = r.remembered
  factories : s.factories = r.factories
  calls : r.calls <+: s.calls

theorem Continues.lasting : Lasting Continues where
  refl _ := ⟨List.prefix_rfl, id, rfl, rfl, rfl, List.prefix_rfl⟩
  trans hrs hst := ⟨hrs.initial.trans hst.initial, fun h => hst.values (hrs.values h),
    hst.commandLine.trans hrs.commandLine, hst.remembered.trans hrs.remembered, hst.factories.trans hrs.factories,
    hrs.calls.trans hst.calls⟩

theorem Continues.flags (h : Continues r s) {name : String} {flag : Flag} (hflag : Assoc.find? r.flags name = some flag) :
    Assoc.find? s.flags name = some flag := by
  obtain ⟨added, hflags⟩ := h.initial
  rw [← hflags, Assoc.find?_append, hflag]
  rfl

theorem Sound.reads {start : Registry} {asked : Flag → Prop} (h : Sound start r) (hreads : Reads asked r s) :
    Sound start s where
  commandLine := hreads.commandLine.trans h.commandLine
  remembered := hreads.remembered.trans h.remembered
  factories := hreads.factories.trans h.factories
  named := hreads.named h.named
  settled hlocked entry hentry := by
    rw [hreads.locked] at hlocked
    exact (h.settled hlocked entry hentry).mono hreads.flags hreads.values

section locked

variable {start : Registry} {result : LockedFlags} (h : Sound start r) (hlocked : r.locked = some result)

include h hlocked

theorem Sound.mem_names {entry : String × FlagInfo} (hentry : entry ∈ result.info) : entry.1 ∈ r.names := by
  obtain ⟨flag, -, hflag, -⟩ := h.settled hlocked entry hentry
  exact Text.mem_sortOn.mpr (Assoc.mem_keys_of_find? hflag)

variable (hkeys : Assoc.keys result.info = r.names)

include hkeys

theorem Sound.info : Registry.info r = .ok result.info r := info_of_shows h.named hkeys (h.settled hlocked)

theorem Sound.frozen : r.Frozen := ⟨Option.isSome_of_eq_some hlocked, complete_of_info h.named (h.info hlocked hkeys) rfl⟩

end locked

end Registry

namespace Settings

open Registry

variable {start : Registry} {s t : Settings} {request : FlagRequest}

/-! ### One request -/

theorem endState_onRegistry {α : Type} (operation : RegistryM α) (s : Settings) :
    endState (onRegistry operation) s = { s with registry := endState operation s.registry } := by
  rw [onRegistry_eq, endState_zoom]

/-- Locking an open registry settles it. Only if that and the file for the values go well is the registry locked. -/
theorem lock_cases (h : s.registry.locked = none) (file : Option String) :
    (∃ e t, lock file s = .error e t ∧ t.registry = endState settle s.registry) ∨
    ∃ locked u t, settle s.registry = .ok locked u ∧ lock file s = .ok locked t ∧
      t.registry = { u with locked := some locked } := by
  cases hlock : lock file s with
  | ok locked t =>
    obtain ⟨u, store, hsettle, -, rfl⟩ := (lock_eq_ok_iff h).mp hlock
    exact .inr ⟨locked, u, _, hsettle, rfl, rfl⟩
  | error e t =>
    refine .inl ⟨e, t, rfl, ?_⟩
    rcases (lock_eq_error_iff h).mp hlock with ⟨u, hsettle, rfl⟩ | ⟨locked, u, store, hsettle, -, rfl⟩
    · exact (endState_of_error hsettle).symm
    · exact (endState_of_ok hsettle).symm

theorem serve_ends (request : FlagRequest) (s : Settings) :
    Reads (· ∈ request.mentioned) s.registry (endState request.serve s).registry ∨
    s.registry.locked = none ∧ ∃ locked u t, settle s.registry = .ok locked u ∧
      request.serve s = .ok (.locked locked) t ∧ t.registry = { u with locked := some locked } := by
  cases request with
  | register flag =>
    rw [FlagRequest.serve, endState_bind_quiet fun _ _ => rfl, endState_onRegistry]
    exact .inl (reads_register (List.mem_cons_self : flag ∈ (FlagRequest.register flag).mentioned) s.registry)
  | value reference =>
    rw [FlagRequest.serve, endState_bind_quiet fun _ _ => rfl, endState_onRegistry]
    exact .inl (reads_read reference s.registry)
  | info =>
    rw [FlagRequest.serve, endState_bind_quiet fun _ _ => rfl, endState_onRegistry]
    exact .inl (reads_info _ s.registry)
  | lock file =>
    rw [FlagRequest.serve, endState_bind_quiet fun _ _ => rfl]
    cases hopen : s.registry.locked with
    | some locked =>
      rw [endState_of_ok (lock_of_locked hopen file)]
      exact .inl (.refl _ _)
    | none =>
      rcases lock_cases hopen file with ⟨e, t, hlock, ht⟩ | ⟨locked, u, t, hsettle, hlock, ht⟩
      · rw [endState_of_error hlock, ht]
        exact .inl (reads_settle _ s.registry)
      · exact .inr ⟨rfl, locked, u, t, hsettle, bind_eq_ok_iff.mpr ⟨locked, t, hlock, rfl⟩, ht⟩

theorem reads_serve (request : FlagRequest) (s : Settings) :
    Reads (· ∈ request.mentioned) s.registry
      { (endState request.serve s).registry with locked := s.registry.locked } := by
  rcases serve_ends request s with hreads | ⟨hopen, locked, u, t, hsettle, hserve, ht⟩
  · exact { hreads with locked := rfl, origin := hreads.origin }
  · have hreads := (reads_settle (· ∈ request.mentioned)).ok hsettle
    rw [endState_of_ok hserve, ht]
    exact { hreads with locked := rfl, origin := hreads.origin }

theorem sound_opened (commandLine remembered : Assoc String String) (factories : Assoc String FactoryBehavior)
    (store : Store) : Sound (opened commandLine remembered factories store).registry
      (opened commandLine remembered factories store).registry := ⟨rfl, rfl, rfl, nofun, nofun⟩

theorem sound_serve (hsound : Sound start s.registry) (request : FlagRequest) :
    Sound start (endState request.serve s).registry := by
  rcases serve_ends request s with hreads | ⟨hopen, locked, u, t, hsettle, hserve, ht⟩
  · exact hsound.reads hreads
  · have hu := hsound.reads ((reads_settle fun _ => False).ok hsettle)
    rw [endState_of_ok hserve, ht]
    refine { hu with settled := fun hlocked => ?_ }
    cases hlocked
    exact (info_ok hsound.named (info_of_settle hsettle).1).2

/-- What a request is answered agrees with the registry that it leaves. -/
theorem agrees_serve (hsound : Sound start s.registry) {reply : FlagReply} (h : request.serve s = .ok reply t) :
    reply.Agrees t.registry := by
  have hafter := sound_serve hsound request
  rw [endState_of_ok h] at hafter
  cases request with
  | register flag =>
    obtain ⟨_, u, hon, hlast⟩ := bind_eq_ok_iff.mp h
    obtain ⟨registry, hregister, rfl⟩ := onRegistry_eq_ok_iff.mp hon
    cases hlast
    exact register_ok hregister
  | value reference =>
    obtain ⟨value, u, hon, hlast⟩ := bind_eq_ok_iff.mp h
    obtain ⟨registry, hread, rfl⟩ := onRegistry_eq_ok_iff.mp hon
    cases hlast
    exact read_ok hsound.named hread
  | info =>
    obtain ⟨table, u, hon, hlast⟩ := bind_eq_ok_iff.mp h
    obtain ⟨registry, hinfo, rfl⟩ := onRegistry_eq_ok_iff.mp hon
    cases hlast
    exact (info_ok hsound.named hinfo).2
  | lock file =>
    obtain ⟨locked, u, hlock, hlast⟩ := bind_eq_ok_iff.mp h
    cases hlast
    have hlocked : t.registry.locked = some locked := by
      cases hopen : s.registry.locked with
      | some known =>
        rw [lock_of_locked hopen] at hlock
        cases hlock
        exact hopen
      | none =>
        obtain ⟨registry, store, -, -, rfl⟩ := (lock_eq_ok_iff hopen).mp hlock
        rfl
    exact ⟨hafter.settled hlocked, hlocked⟩

/-! ### Sequences of requests -/

variable {requests : List FlagRequest} {name : String} {value : FlagValue} {result : LockedFlags}

theorem serveAll_append (s : Settings) (requests more : List FlagRequest) :
    s.serveAll (requests ++ more) = (s.serveAll requests).serveAll more := List.foldl_append

theorem sound_serveAll (hsound : Sound start s.registry) (requests : List FlagRequest) :
    Sound start (s.serveAll requests).registry := by
  induction requests generalizing s with
  | nil => exact hsound
  | cons request rest ih => exact ih (sound_serve hsound request)

theorem locked_serve (h : s.registry.locked = some result) (request : FlagRequest) :
    (endState request.serve s).registry.locked = some result ∧
      (endState request.serve s).registry.flags = s.registry.flags := by
  rcases serve_ends request s with hreads | ⟨hopen, -⟩
  · exact ⟨hreads.locked.trans h, hreads.late (Option.isSome_of_eq_some h)⟩
  · rw [hopen] at h
    cases h

theorem locked_serveAll (requests : List FlagRequest) (h : s.registry.locked = some result) :
    (s.serveAll requests).registry.locked = some result ∧ (s.serveAll requests).registry.flags = s.registry.flags := by
  induction requests generalizing s with
  | nil => exact ⟨h, rfl⟩
  | cons request rest ih =>
    obtain ⟨hlocked, hflags⟩ := locked_serve h request
    obtain ⟨hlast, hsame⟩ := ih hlocked
    exact ⟨hlast, hsame.trans hflags⟩

theorem continues_serve (request : FlagRequest) (s : Settings) :
    s.registry.Continues (endState request.serve s).registry := by
  have hreads := reads_serve request s
  exact ⟨hreads.initial, hreads.values, hreads.commandLine, hreads.remembered, hreads.factories, hreads.prefix_calls⟩

theorem continues_serveAll (requests : List FlagRequest) (s : Settings) :
    s.registry.Continues (s.serveAll requests).registry := by
  induction requests generalizing s with
  | nil => exact Continues.lasting.refl _
  | cons request rest ih => exact Continues.lasting.trans (continues_serve request s) (ih _)

/-- The first request after which a flag has a value has read a definition that gives it. -/
theorem exists_origin (hsound : Sound start s.registry) (hnone : Assoc.find? s.registry.values name = none)
    (hsome : Assoc.find? (s.serveAll requests).registry.values name = some value) :
    ∃ before request after, requests = before ++ request :: after ∧
      Assoc.find? (s.serveAll before).registry.values name = none ∧
      Assoc.find? (endState request.serve (s.serveAll before)).registry.values name = some value ∧
      ∃ flag used, Assoc.find? (s.serveAll requests).registry.flags name = some flag ∧ used.name = name ∧
        used.kind = flag.kind ∧ (s.serveAll before).registry.Knows (· ∈ request.mentioned) used ∧
        used.Gives (s.serveAll requests).registry value := by
  induction requests generalizing s with
  | nil =>
    rw [serveAll, List.foldl_nil, hnone] at hsome
    cases hsome
  | cons request rest ih =>
    have hafter := sound_serve hsound request
    cases hvalue : Assoc.find? (endState request.serve s).registry.values name with
    | none =>
      obtain ⟨before, next, after, rfl, hfirst⟩ := ih hafter hvalue hsome
      exact ⟨request :: before, next, after, rfl, hfirst⟩
    | some known =>
      have hlater := continues_serveAll rest (endState request.serve s)
      cases (hlater.values hvalue).symm.trans hsome
      obtain ⟨flag, used, hflag, hname, hkind, hknows, hgives⟩ := (reads_serve request s).origin hsound.named hnone hvalue
      exact ⟨[], request, rest, rfl, hnone, hvalue, flag, used, hlater.flags hflag, hname, hkind, hknows,
        Flag.Gives.mono hgives hlater.commandLine hlater.remembered hlater.factories hlater.calls⟩

end Settings

/-- A flag whose factory asks for a flag that nobody has registered. -/
def earlyFlag : Flag := { kind := .int, name := "early", factory := some "early" }

/-- A flag whose factory gives a value only when it is called for the third time. -/
def lateFlag : Flag := { kind := .int, name := "late", factory := some "late" }

/-- What these factories do. -/
def exampleFactories : Assoc String FactoryBehavior :=
  [("title", fun call => if call = 0 then .reads (.name "title") fun
      | .ok (.string text) => .gives (some (.string (text ++ "!")))
      | _ => .gives none
    else .gives (some (.string "a"))),
    ("early", fun _ => .reads (.definition lateFlag) fun _ => .gives (some (.int 1))),
    ("late", fun call => .gives (if call = 2 then some (.int 5) else none))]

end BuildPlan
