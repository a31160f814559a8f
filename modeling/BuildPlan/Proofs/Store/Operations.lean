import BuildPlan.Build.Session
import BuildPlan.Proofs.Store.Growth

/-!
# What file operations come to

In a store whose directories lead to a place, the outcome of an operation there depends on what is at the place and on
the accesses that are refused there. The equations here say how.
-/

namespace BuildPlan

namespace Store

variable {s t : Store} {path text : String} {place : Location}

theorem put_eq_self {mode : Nat} (h : s.find? place = some (.file text mode)) : s.put place (.file text mode) = s := by
  unfold find? at h
  split at h
  · cases h
  · rw [put, Assoc.insert_eq_self h]

/-! ### Checks -/

theorem isDirectory_iff : s.isDirectory place = true ↔ s.find? place = some .directory := decide_eq_true_iff

theorem checkAncestors_eq_ok_iff : s.checkAncestors path place = .ok () ↔ s.Reaches place := by
  unfold checkAncestors
  cases hfirst : (ancestors place).find? fun above => !s.isDirectory above with
  | none =>
    refine iff_of_true rfl fun above habove => isDirectory_iff.mp ?_
    simpa using List.find?_eq_none.mp hfirst above habove
  | some above =>
    refine iff_of_false nofun fun h => ?_
    have hnone := List.find?_some hfirst
    rw [isDirectory_iff.mpr (h above (List.mem_of_find?_eq_some hfirst))] at hnone
    cases hnone

theorem checkName_cases (path : String) : checkName path = .ok () ∨ checkName path = .error .badName := by
  unfold checkName
  split
  · exact .inr rfl
  · exact .inl rfl

theorem notMem_of_checkName (h : checkName path = .ok ()) : path.toList.contains '\x00' = false := by
  unfold checkName at h
  split at h
  · cases h
  case isFalse hmem => exact Bool.eq_false_iff.mpr hmem

theorem makeDirectories_of_badName (h : checkName path = .error .badName) :
    s.makeDirectories path = .error .badName := by
  rw [makeDirectories, h]
  rfl

/-- The places at and above a place where nothing is. -/
def missing (s : Store) (place : Location) : List Location :=
  (ancestors place ++ [place]).filter fun above => (s.find? above).isNone

theorem makeDirectories_of_name (h : checkName path = .ok ()) :
    s.makeDirectories path =
      match s.find? (locate path) with
      | some .directory => .ok s
      | some (.file _ _) => failAt .alreadyExists path
      | none =>
        if (ancestors (locate path)).all fun above => (s.find? above).isNone || s.isDirectory above then do
          (s.missing (locate path)).forM fun above => s.checkAccess .makeDirectory path above
          return (s.missing (locate path)).foldl (fun s above => s.put above .directory) s
        else failAt .notDirectory path := by
  rw [makeDirectories, h]
  rfl

/-! ### Operations on a file -/

theorem hasEntry_of_badName (h : checkName path = .error .badName) : s.hasEntry path = false := by
  have hmem : path.toList.contains '\x00' = true := by
    unfold checkName at h
    split at h
    case isTrue hmem => exact hmem
    case isFalse => cases h
  rw [hasEntry, hmem]
  rfl

theorem writeText_of_badName (h : checkName path = .error .badName) : s.writeText path text = .error .badName := by
  rw [writeText, h]
  rfl

section reached

variable (hname : checkName path = .ok ()) (hreach : s.Reaches (locate path))
include hname hreach

theorem checked {α : Type} (operation : Outcome α) :
    (do checkName path; s.checkAncestors path (locate path); operation) = operation := by
  rw [hname, checkAncestors_eq_ok_iff.mpr hreach]
  rfl

theorem hasEntry_eq : s.hasEntry path = (s.find? (locate path)).isSome := by
  have habove : (ancestors (locate path)).all s.isDirectory = true :=
    List.all_eq_true.mpr fun above h => isDirectory_iff.mpr (hreach above h)
  rw [hasEntry, notMem_of_checkName hname]
  simp only [habove]
  simp

theorem readText_eq :
    s.readText path =
      match s.find? (locate path) with
      | none => failAt .noEntry path
      | some .directory => failAt .isDirectory path
      | some (.file text _) => if s.refuses .read (locate path) then failAt .denied path else .ok text := by
  refine (checked hname hreach _).trans ?_
  cases s.find? (locate path) with
  | none => rfl
  | some node =>
    cases node with
    | directory => rfl
    | file text mode =>
      simp only [checkAccess]
      split <;> rfl

theorem writeText_eq :
    s.writeText path text =
      match s.find? (locate path) with
      | none =>
        if s.refuses .create (locate path) then failAt .denied path
        else .ok (s.put (locate path) (.file text plainMode))
      | some .directory => failAt .isDirectory path
      | some (.file _ mode) =>
        if s.refuses .write (locate path) then failAt .denied path
        else .ok (s.put (locate path) (.file text mode)) := by
  refine (checked hname hreach _).trans ?_
  cases s.find? (locate path) with
  | none =>
    simp only [checkAccess]
    split <;> rfl
  | some node =>
    cases node with
    | directory => rfl
    | file text mode =>
      simp only [checkAccess]
      split <;> rfl

theorem setMode_eq (mode : Nat) :
    s.setMode path mode =
      if s.refuses .changeMode (locate path) then failAt .denied path
      else
        match s.find? (locate path) with
        | none => failAt .noEntry path
        | some .directory => .ok s
        | some (.file text _) => .ok (s.put (locate path) (.file text (mode % 0o10000))) := by
  refine (checked hname hreach _).trans ?_
  simp only [checkAccess]
  split <;> rfl

/-- What keeping the text of a file comes to: whether or not it is written, it is there afterwards. -/
theorem keepText_eq :
    Session.keepText s path text =
      match s.find? (locate path) with
      | none =>
        if s.refuses .create (locate path) then failAt .denied path
        else .ok (s.put (locate path) (.file text plainMode))
      | some .directory => failAt .isDirectory path
      | some (.file old mode) =>
        if s.refuses .read (locate path) ∨ (old ≠ text ∧ s.refuses .write (locate path)) then failAt .denied path
        else .ok (s.put (locate path) (.file text mode)) := by
  rw [Session.keepText, hasEntry_eq hname hreach, readText_eq hname hreach, writeText_eq hname hreach]
  cases hfound : s.find? (locate path) with
  | none => rfl
  | some node =>
    cases node with
    | directory => rfl
    | file old mode =>
      simp only [Option.isSome_some, if_true]
      by_cases hread : s.refuses .read (locate path) = true
      · have hrefused : s.refuses .read (locate path) = true ∨ (old ≠ text ∧ s.refuses .write (locate path) = true) :=
          .inl hread
        rw [if_pos hread, if_pos hrefused]
        rfl
      rw [if_neg hread]
      change (if old = text then Except.ok s else _ : Outcome Store) = _
      by_cases hold : old = text
      · subst hold
        rw [if_pos rfl, if_neg (not_or.mpr ⟨hread, fun h => h.1 rfl⟩), put_eq_self hfound]
      · simp [hread, hold]

theorem makeDirectories_eq :
    s.makeDirectories path =
      match s.find? (locate path) with
      | some .directory => .ok s
      | some (.file _ _) => failAt .alreadyExists path
      | none =>
        if s.refuses .makeDirectory (locate path) then failAt .denied path
        else .ok (s.put (locate path) .directory) := by
  rw [makeDirectories_of_name hname]
  cases hfound : s.find? (locate path) with
  | some node => cases node <;> rfl
  | none =>
    have hall : (ancestors (locate path)).all (fun above => (s.find? above).isNone || s.isDirectory above) = true :=
      List.all_eq_true.mpr fun above h => by simp [isDirectory_iff.mpr (hreach above h)]
    have hmissing : s.missing (locate path) = [locate path] := by
      have habove : (ancestors (locate path)).filter (fun above => (s.find? above).isNone) = [] :=
        List.filter_eq_nil_iff.mpr fun above h => by simp [hreach above h]
      rw [missing, List.filter_append, habove, List.filter_cons_of_pos (by simp [hfound])]
      rfl
    simp only [hall, if_true, hmissing]
    unfold checkAccess
    rw [List.forM_eq_forM, List.forM_cons]
    by_cases hrefuses : s.refuses .makeDirectory (locate path)
    · simp only [hrefuses, if_true]
      rfl
    · simp only [hrefuses, Bool.false_eq_true, if_false]
      rfl

end reached

theorem keepText_of_badName (h : checkName path = .error .badName) :
    Session.keepText s path text = .error .badName := by
  rw [Session.keepText, hasEntry_of_badName h, writeText_of_badName h]
  rfl

/-! ### Operations that succeed -/

theorem writeText_ok (h : s.writeText path text = .ok t) :
    checkName path = .ok () ∧ s.Reaches (locate path) ∧
      ((s.find? (locate path) = none ∧ s.refuses .create (locate path) = false ∧
          t = s.put (locate path) (.file text plainMode)) ∨
        ∃ old mode, s.find? (locate path) = some (.file old mode) ∧ s.refuses .write (locate path) = false ∧
          t = s.put (locate path) (.file text mode)) := by
  rcases checkName_cases path with hname | hbad
  case inr =>
    rw [writeText_of_badName hbad] at h
    cases h
  cases habove : s.checkAncestors path (locate path) with
  | error e =>
    simp only [writeText, hname, habove, bind, Except.bind] at h
    cases h
  | ok _ =>
    have hreach := checkAncestors_eq_ok_iff.mp habove
    refine ⟨hname, hreach, ?_⟩
    rw [writeText_eq hname hreach] at h
    cases hfound : s.find? (locate path) with
    | none =>
      rw [hfound] at h
      by_cases hrefuses : s.refuses .create (locate path) = true
      · simp only [if_pos hrefuses] at h
        cases h
      · simp only [if_neg hrefuses] at h
        cases h
        exact .inl ⟨rfl, Bool.eq_false_iff.mpr hrefuses, rfl⟩
    | some node =>
      rw [hfound] at h
      cases node with
      | directory => cases h
      | file old mode =>
        by_cases hrefuses : s.refuses .write (locate path) = true
        · simp only [if_pos hrefuses] at h
          cases h
        · simp only [if_neg hrefuses] at h
          cases h
          exact .inr ⟨old, mode, rfl, Bool.eq_false_iff.mpr hrefuses, rfl⟩

theorem hasEntry_ok (h : s.hasEntry path = true) : checkName path = .ok () ∧ s.Reaches (locate path) := by
  rcases checkName_cases path with hname | hbad
  case inr =>
    rw [hasEntry_of_badName hbad] at h
    cases h
  refine ⟨hname, fun above habove => isDirectory_iff.mp ?_⟩
  obtain ⟨-, habove'⟩ := Bool.and_eq_true_iff.mp h
  exact List.all_eq_true.mp habove' above habove

theorem keepText_ok (h : Session.keepText s path text = .ok t) :
    checkName path = .ok () ∧ s.Reaches (locate path) ∧
      ∃ mode, t = s.put (locate path) (.file text mode) := by
  have hchecks : checkName path = .ok () ∧ s.Reaches (locate path) := by
    by_cases hentry : s.hasEntry path = true
    · exact hasEntry_ok hentry
    · rw [Session.keepText, if_neg hentry] at h
      obtain ⟨hname, hreach, -⟩ := writeText_ok h
      exact ⟨hname, hreach⟩
  obtain ⟨hname, hreach⟩ := hchecks
  refine ⟨hname, hreach, ?_⟩
  rw [keepText_eq hname hreach] at h
  split at h
  case h_2 => cases h
  all_goals
    split at h
    · cases h
    · cases h
      exact ⟨_, rfl⟩

theorem foldl_put_directory {places : List Location} (hfile : ∀ place ∈ places, ∀ text mode,
      s.find? place ≠ some (.file text mode)) (hroot : [] ∉ places) :
    s.Grows (places.foldl (fun s above => s.put above .directory) s) ∧
      ∀ {place text mode},
        (places.foldl (fun s above => s.put above .directory) s).find? place = some (.file text mode) ↔
        s.find? place = some (.file text mode) := by
  induction places generalizing s with
  | nil => exact ⟨Grows.lasting.refl s, .rfl⟩
  | cons first rest ih =>
    obtain ⟨hfirst, hrest⟩ := List.forall_mem_cons.mp hfile
    obtain ⟨hne, hroot⟩ := not_or.mp fun h => hroot (List.mem_cons.mpr h)
    have hput : ∀ {place text mode}, (s.put first .directory).find? place = some (.file text mode) ↔
        s.find? place = some (.file text mode) := by
      intro place text mode
      rw [find?_put _ _ _ _ (Ne.symm hne)]
      split
      case isTrue hplace =>
        subst hplace
        exact iff_of_false nofun (hfirst text mode)
      case isFalse => exact .rfl
    obtain ⟨hgrows, hfiles⟩ := ih (fun place hplace text mode h => hrest place hplace text mode (hput.mp h)) hroot
    exact ⟨Grows.lasting.trans (grows_put_directory hfirst (Ne.symm hne)) hgrows, hfiles.trans hput⟩

theorem makeDirectories_ok (h : s.makeDirectories path = .ok t) :
    checkName path = .ok () ∧ s.Grows t ∧
      ∀ {place text mode}, t.find? place = some (.file text mode) ↔ s.find? place = some (.file text mode) := by
  rcases checkName_cases path with hname | hbad
  case inr =>
    rw [makeDirectories_of_badName hbad] at h
    cases h
  refine ⟨hname, ?_⟩
  rw [makeDirectories_of_name hname] at h
  cases hfound : s.find? (locate path) with
  | some node =>
    rw [hfound] at h
    cases node with
    | directory =>
      cases h
      exact ⟨Grows.lasting.refl s, .rfl⟩
    | file text mode => cases h
  | none =>
    rw [hfound] at h
    simp only at h
    split at h
    case isFalse => cases h
    case isTrue =>
      cases hallowed : (s.missing (locate path)).forM fun above => s.checkAccess .makeDirectory path above with
      | error e =>
        rw [hallowed] at h
        cases h
      | ok _ =>
        rw [hallowed] at h
        cases h
        refine foldl_put_directory (fun place hplace text mode hfile => ?_) fun hroot => ?_
        · have hnone := (List.mem_filter.mp hplace).2
          rw [hfile] at hnone
          cases hnone
        · have hnone := (List.mem_filter.mp hroot).2
          cases hnone

theorem makeDirectories_of_directory (hname : checkName path = .ok ()) (h : s.find? (locate path) = some .directory) :
    s.makeDirectories path = .ok s := by
  rw [makeDirectories_of_name hname, h]

end Store

end BuildPlan
