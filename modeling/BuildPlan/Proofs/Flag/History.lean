import BuildPlan.Proofs.Flag.Lifecycle

/-!
# What requests leave behind

Whatever has been asked of a registry, its flags are definitions that have been mentioned, by a request or by a factory,
each of its values comes from such a definition (`Settings.exists_source`), and if it is locked, it has been settled
(`Settings.exists_settle`).
-/

namespace BuildPlan

namespace Settings

open Registry

variable {s : Settings} {requests : List FlagRequest} {flag : Flag} {name : String} {value : FlagValue}

/-- The definition is mentioned by one of the requests. -/
def Mentioned (requests : List FlagRequest) (flag : Flag) : Prop := ∃ request ∈ requests, flag ∈ request.mentioned

/-- What is known after some requests has been known before, or it has been mentioned. -/
theorem knows_serveAll {asked : Flag → Prop} (h : (s.serveAll requests).registry.Knows asked flag) :
    s.registry.Knows (fun flag => asked flag ∨ Mentioned requests flag) flag := by
  induction requests generalizing s with
  | nil => exact h.imp_right (Or.imp_left .inl)
  | cons request rest ih =>
    have hbetween : Knows { (endState request.serve s).registry with locked := s.registry.locked }
        (fun flag => asked flag ∨ Mentioned (request :: rest) flag) flag :=
      (ih h).imp_right <| Or.imp_left <| Or.imp_right fun ⟨given, hgiven, hmentioned⟩ =>
        ⟨given, List.mem_cons_of_mem _ hgiven, hmentioned⟩
    exact ((reads_serve request s).mono fun flag hmentioned =>
      Or.inr ⟨request, List.mem_cons_self, hmentioned⟩).knows hbetween

theorem nodup_serveAll (h : (Assoc.keys s.registry.flags).Nodup) (requests : List FlagRequest) :
    (Assoc.keys (s.serveAll requests).registry.flags).Nodup := by
  induction requests generalizing s with
  | nil => exact h
  | cons request rest ih => exact ih ((reads_serve request s).nodup h)

/-- A flag that has got a value is registered, and a definition of its type has given the value. -/
theorem exists_source {start : Registry} (hsound : Sound start s.registry)
    (hnone : Assoc.find? s.registry.values name = none)
    (hsome : Assoc.find? (s.serveAll requests).registry.values name = some value) :
    ∃ flag used, Assoc.find? (s.serveAll requests).registry.flags name = some flag ∧ used.name = name ∧
      used.kind = flag.kind ∧ s.registry.Knows (Mentioned requests) used ∧
      used.Gives (s.serveAll requests).registry value := by
  obtain ⟨before, request, after, rfl, -, -, flag, used, hflag, hname, hkind, hknows, hgives⟩ :=
    exists_origin hsound hnone hsome
  refine ⟨flag, used, hflag, hname, hkind, (knows_serveAll hknows).imp_right (Or.imp_left ?_), hgives⟩
  rintro (hmentioned | ⟨given, hgiven, hmentioned⟩)
  · exact ⟨request, by simp, hmentioned⟩
  · exact ⟨given, List.mem_append_left _ hgiven, hmentioned⟩

theorem exists_settle (hopen : s.registry.locked = none) {locked : LockedFlags}
    (h : (s.serveAll requests).registry.locked = some locked) :
    ∃ before file after t, requests = before ++ .lock file :: after ∧
      settle (s.serveAll before).registry = .ok locked t ∧ (s.serveAll requests).registry.flags = t.flags := by
  induction requests generalizing s with
  | nil =>
    rw [serveAll, List.foldl_nil, hopen] at h
    cases h
  | cons request rest ih =>
    rcases serve_ends request s with hreads | ⟨-, result, u, t, hsettle, hserve, ht⟩
    · obtain ⟨before, file, after, t, rfl, hsettle, hflags⟩ := ih (hreads.locked.trans hopen) h
      exact ⟨request :: before, file, after, t, rfl, hsettle, hflags⟩
    · have hlocked : (endState request.serve s).registry.locked = some result := by
        rw [endState_of_ok hserve, ht]
      obtain ⟨hlast, hflags⟩ := locked_serveAll rest hlocked
      obtain rfl : result = locked := Option.some.inj (hlast.symm.trans h)
      have hfile : ∃ file, request = .lock file := by
        cases request with
        | lock file => exact ⟨file, rfl⟩
        | register flag =>
          obtain ⟨_, _, -, hlast⟩ := bind_eq_ok_iff.mp hserve
          cases hlast
        | value reference =>
          obtain ⟨_, _, -, hlast⟩ := bind_eq_ok_iff.mp hserve
          cases hlast
        | info =>
          obtain ⟨_, _, -, hlast⟩ := bind_eq_ok_iff.mp hserve
          cases hlast
      obtain ⟨file, rfl⟩ := hfile
      refine ⟨[], file, rest, u, rfl, hsettle, ?_⟩
      show ((endState (FlagRequest.lock file).serve s).serveAll rest).registry.flags = _
      rw [hflags, endState_of_ok hserve, ht]

end Settings

end BuildPlan
