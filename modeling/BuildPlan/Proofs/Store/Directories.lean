import BuildPlan.Proofs.Store.Payloads

/-!
# Directories that are already there

Making directories puts them at a place and at all places above it where nothing is (`Store.Makes`). A store is ahead of
another one when it has some directories that the other may still make: file operations then do the same to both
(`Store.Ahead.makeDirectories`, `Store.Ahead.writeText`), unless one of the directories stands where a file is to be.
-/

namespace BuildPlan

theorem locate_cases (path : String) :
    locate path = locate (Store.parentPath path) ∨ (∃ name, locate path = locate (Store.parentPath path) ++ [name]) ∨
      locate path = (locate (Store.parentPath path)).dropLast := by
  have hlast := Lexical.stackOf_dirname (Lexical.tidy path.toList)
  have hplace : locate path = (Lexical.stackOf (Lexical.tidy path.toList)).reverse.map String.ofList := by
    rw [← locate_tidyText, locate, tidyText, String.toList_ofList]
    rfl
  have hparent : locate (Store.parentPath path) =
      (Lexical.stackOf (Lexical.dirname (Lexical.tidy path.toList))).reverse.map String.ofList := by
    rw [Store.parentPath, locate_tidyText, locate, directoryOf, String.toList_ofList, tidyText, String.toList_ofList]
    rfl
  rw [hplace, hparent, hlast, Lexical.push]
  split
  · exact .inl rfl
  · split
    · refine .inr (.inr ?_)
      rw [List.drop_one, ← List.dropLast_reverse, List.map_dropLast]
    · exact .inr (.inl ⟨_, by rw [List.reverse_cons, List.map_append, List.map_singleton]⟩)

namespace Store

variable {s t : Store} {path text : String} {place above : Location}

/-! ### Places above a place -/

theorem mem_ancestors_iff : above ∈ ancestors place ↔ above <+: place ∧ above ≠ place := by
  constructor
  · intro h
    refine ⟨?_, fun heq => absurd (length_lt_of_mem_ancestors h) (by rw [heq]; exact Nat.lt_irrefl _)⟩
    obtain ⟨n, -, rfl⟩ := List.mem_map.mp h
    exact List.take_prefix n place
  · rintro ⟨hpre, hne⟩
    have hlength : above.length < place.length :=
      Nat.lt_of_le_of_ne hpre.length_le fun heq => hne (hpre.eq_of_length heq)
    exact List.mem_map.mpr ⟨above.length, List.mem_range.mpr hlength, (List.prefix_iff_eq_take.mp hpre).symm⟩

theorem mem_ancestors_concat_iff : above ∈ ancestors place ++ [place] ↔ above <+: place := by
  rw [List.mem_append, mem_ancestors_iff, List.mem_singleton]
  constructor
  · rintro (⟨h, -⟩ | rfl)
    · exact h
    · exact List.prefix_rfl
  · intro h
    by_cases heq : above = place
    · exact .inr heq
    · exact .inl ⟨h, heq⟩

theorem prefix_of_mem_ancestors (h : above ∈ ancestors (locate path)) : above <+: locate (parentPath path) := by
  obtain ⟨hpre, hne⟩ := mem_ancestors_iff.mp h
  rcases locate_cases path with hsame | ⟨name, hname⟩ | hup
  · rwa [hsame] at hpre
  · rw [hname] at hpre hne
    exact (List.prefix_concat_iff.mp hpre).resolve_left hne
  · rw [hup] at hpre
    exact hpre.trans (List.dropLast_prefix _)

theorem WellFormed.find?_above (hs : s.WellFormed) (hplace : s.find? place = some .directory)
    (habove : above <+: place) : s.find? above = some .directory := by
  by_cases heq : above = place
  · rwa [heq]
  · exact hs place (Option.isSome_of_eq_some hplace) above (mem_ancestors_iff.mpr ⟨habove, heq⟩)

theorem wellFormed_of_entries
    (h : ∀ entry ∈ s.entries, ∀ above ∈ ancestors entry.1, s.find? above = some .directory) : s.WellFormed := by
  intro place hplace above habove
  by_cases hroot : place = []
  · rw [hroot] at habove
    cases habove
  · obtain ⟨node, hnode⟩ := Option.isSome_iff_exists.mp hplace
    rw [find?, if_neg hroot] at hnode
    exact h (place, node) (Assoc.mem_of_find? hnode) above habove

theorem wellFormed_empty : WellFormed {} := wellFormed_of_entries nofun

/-! ### Making directories -/

theorem forM_checkAccess (s : Store) (access : Access) (path : String) (places : List Location) :
    (places.forM fun place => s.checkAccess access path place) =
      if places.any (s.refuses access) then failAt .denied path else .ok () := by
  induction places with
  | nil => rfl
  | cons place rest ih =>
    rw [List.forM_eq_forM] at ih ⊢
    rw [List.forM_cons, ih, List.any_cons, checkAccess]
    cases s.refuses access place <;> rfl

theorem find?_foldl_put {places : List Location} (hroot : [] ∉ places) (s : Store) (place : Location) :
    (places.foldl (fun s above => s.put above .directory) s).find? place =
      if place ∈ places then some .directory else s.find? place := by
  induction places generalizing s with
  | nil => rfl
  | cons first rest ih =>
    obtain ⟨hne, hrest⟩ := not_or.mp fun h => hroot (List.mem_cons.mpr h)
    rw [List.foldl_cons, ih hrest, find?_put _ _ _ _ (Ne.symm hne)]
    by_cases hmem : place ∈ rest <;> by_cases hfirst : place = first <;> simp [hmem, hfirst]

theorem mem_missing_iff : above ∈ s.missing place ↔ above <+: place ∧ s.find? above = none := by
  rw [missing, List.mem_filter, mem_ancestors_concat_iff, Option.isNone_iff_eq_none]

/-- Directories have been made at a place and above it. -/
structure Makes (place : Location) (s t : Store) : Prop where
  refuses : t.refuses = s.refuses
  inside : ∀ above, above <+: place → t.find? above = some .directory
  outside : ∀ other, ¬ other <+: place → t.find? other = s.find? other
  before : ∀ above, above <+: place →
    s.find? above = some .directory ∨ (s.find? above = none ∧ s.refuses .makeDirectory above = false)

theorem makes_of_makeDirectories (hs : s.WellFormed) (h : s.makeDirectories path = .ok t) :
    Makes (locate path) s t := by
  obtain ⟨hname, hgrows, -⟩ := makeDirectories_ok h
  rw [makeDirectories_of_name hname] at h
  cases hfound : s.find? (locate path) with
  | some node =>
    rw [hfound] at h
    cases node with
    | file text mode => cases h
    | directory =>
      cases h
      exact ⟨rfl, fun above => hs.find?_above hfound, fun _ _ => rfl, fun above habove =>
        .inl (hs.find?_above hfound habove)⟩
  | none =>
    rw [hfound] at h
    simp only [forM_checkAccess] at h
    split at h
    case isFalse => cases h
    case isTrue hall =>
      by_cases hdenied : (s.missing (locate path)).any (s.refuses .makeDirectory) = true
      · rw [if_pos hdenied] at h
        cases h
      · rw [if_neg hdenied] at h
        cases h
        have hroot : [] ∉ s.missing (locate path) := fun hmem => nomatch (mem_missing_iff.mp hmem).2
        have hbefore : ∀ above, above <+: locate path → s.find? above = some .directory ∨
            (s.find? above = none ∧ s.refuses .makeDirectory above = false) := by
          intro above habove
          cases hnone : s.find? above with
          | none =>
            refine .inr ⟨rfl, Bool.eq_false_iff.mpr fun hrefuses => hdenied ?_⟩
            exact List.any_eq_true.mpr ⟨above, mem_missing_iff.mpr ⟨habove, hnone⟩, hrefuses⟩
          | some node =>
            have hne : above ≠ locate path := by
              rintro rfl
              rw [hfound] at hnone
              cases hnone
            have hdirectory := List.all_eq_true.mp hall above (mem_ancestors_iff.mpr ⟨habove, hne⟩)
            simpa [hnone, isDirectory] using hdirectory
        refine ⟨hgrows.refuses, fun above habove => ?_, fun other hother => ?_, hbefore⟩
        · show (List.foldl _ s _).find? above = _
          rw [find?_foldl_put hroot]
          rcases hbefore above habove with hdirectory | ⟨hnone, -⟩
          · rw [hdirectory, ite_self]
          · rw [if_pos (mem_missing_iff.mpr ⟨habove, hnone⟩)]
        · show (List.foldl _ s _).find? other = _
          rw [find?_foldl_put hroot, if_neg fun hmem => hother (mem_missing_iff.mp hmem).1]

theorem Makes.wellFormed (h : Makes place s t) (hs : s.WellFormed) : t.WellFormed := by
  intro other hother above habove
  obtain ⟨hpre, -⟩ := mem_ancestors_iff.mp habove
  by_cases hinside : other <+: place
  · exact h.inside above (hpre.trans hinside)
  · rw [h.outside other hinside] at hother
    by_cases hmade : above <+: place
    · exact h.inside above hmade
    · rw [h.outside above hmade]
      exact hs other hother above habove

theorem Makes.reaches (h : Makes (locate (parentPath path)) s t) : t.Reaches (locate path) := fun above habove =>
  h.inside above (prefix_of_mem_ancestors habove)

/-! ### Stores with more directories -/

/-- The second store has some directories more, at places where the first one may make them. -/
structure Ahead (made : Location → Prop) (s t : Store) : Prop where
  refuses : t.refuses = s.refuses
  turns : ∀ place, t.find? place = s.find? place ∨
    (made place ∧ s.find? place = none ∧ t.find? place = some .directory ∧ s.refuses .makeDirectory place = false)
  wellFormed : s.WellFormed
  wellFormed' : t.WellFormed

variable {made : Location → Prop}

theorem Ahead.refl (made : Location → Prop) (hs : s.WellFormed) : Ahead made s s := ⟨rfl, fun _ => .inl rfl, hs, hs⟩

theorem Ahead.mono {made' : Location → Prop} (h : Ahead made s t) (himp : ∀ place, made place → made' place) :
    Ahead made' s t where
  refuses := h.refuses
  turns place := (h.turns place).imp_right (And.imp_left (himp place))
  wellFormed := h.wellFormed
  wellFormed' := h.wellFormed'

theorem Makes.ahead (h : Makes place s t) (hs : s.WellFormed) :
    Ahead (fun other => other <+: place ∧ t.find? other ≠ s.find? other) s t := by
  refine ⟨h.refuses, fun other => ?_, hs, h.wellFormed hs⟩
  by_cases hinside : other <+: place
  · have hdirectory := h.inside other hinside
    rcases h.before other hinside with hbefore | ⟨hnone, hallowed⟩
    · exact .inl (hdirectory.trans hbefore.symm)
    · refine .inr ⟨⟨hinside, ?_⟩, hnone, hdirectory, hallowed⟩
      rw [hdirectory, hnone]
      exact Option.some_ne_none _
  · exact .inl (h.outside other hinside)

namespace Ahead

theorem find?_eq (h : Ahead made s t) (hplace : ¬ made place) : t.find? place = s.find? place :=
  (h.turns place).resolve_right fun hmade => hplace hmade.1

theorem directory (h : Ahead made s t) (hplace : s.find? place = some .directory) :
    t.find? place = some .directory := by
  rcases h.turns place with hsame | ⟨-, hnone, -⟩
  · rwa [hsame]
  · rw [hplace] at hnone
    cases hnone

theorem file_iff (h : Ahead made s t) {mode : Nat} :
    t.find? place = some (.file text mode) ↔ s.find? place = some (.file text mode) := by
  rcases h.turns place with hsame | ⟨-, hnone, hdirectory, -⟩
  · rw [hsame]
  · rw [hnone, hdirectory]
    exact iff_of_false nofun nofun

theorem reaches (h : Ahead made s t) (hreach : s.Reaches place) : t.Reaches place := fun above habove =>
  h.directory (hreach above habove)

theorem any_missing (h : Ahead made s t) (place : Location) :
    (t.missing place).any (t.refuses .makeDirectory) = (s.missing place).any (s.refuses .makeDirectory) := by
  rw [Bool.eq_iff_iff, List.any_eq_true, List.any_eq_true, h.refuses]
  refine exists_congr fun above => and_congr_left fun hrefuses => ?_
  rw [mem_missing_iff, mem_missing_iff]
  refine and_congr_right fun _ => ?_
  rcases h.turns above with hsame | ⟨-, -, -, hallowed⟩
  · rw [hsame]
  · rw [hrefuses] at hallowed
    cases hallowed

theorem all_ancestors (h : Ahead made s t) (place : Location) :
    ((ancestors place).all fun above => (t.find? above).isNone || t.isDirectory above) =
      (ancestors place).all fun above => (s.find? above).isNone || s.isDirectory above := by
  refine List.all_congr rfl fun above => ?_
  rw [isDirectory, isDirectory]
  rcases h.turns above with hsame | ⟨-, hnone, hdirectory, -⟩
  · rw [hsame]
  · rw [hnone, hdirectory]
    rfl

/-- Directories that can be made in one of the stores can be made in the other. -/
theorem makeDirectories_outcome (h : Ahead made s t) (path : String) :
    (∃ e, s.makeDirectories path = .error e ∧ t.makeDirectories path = .error e) ∨
      ∃ s' t', s.makeDirectories path = .ok s' ∧ t.makeDirectories path = .ok t' := by
  rcases checkName_cases path with hname | hbad
  case inr => exact .inl ⟨_, makeDirectories_of_badName hbad, makeDirectories_of_badName hbad⟩
  rw [makeDirectories_of_name hname, makeDirectories_of_name hname]
  simp only [forM_checkAccess, h.all_ancestors, h.any_missing]
  rcases h.turns (locate path) with hsame | ⟨-, hnone, hdirectory, hallowed⟩
  · rw [hsame]
    cases s.find? (locate path) with
    | some node =>
      cases node with
      | directory => exact .inr ⟨s, t, rfl, rfl⟩
      | file text mode => exact .inl ⟨_, rfl, rfl⟩
    | none =>
      simp only
      split
      · split
        · exact .inl ⟨_, rfl, rfl⟩
        · exact .inr ⟨_, _, rfl, rfl⟩
      · exact .inl ⟨_, rfl, rfl⟩
  · -- the second store has the directory, and the first one can make it with all that is missing above it
    have hall : ((ancestors (locate path)).all fun above => (t.find? above).isNone || t.isDirectory above) = true := by
      refine List.all_eq_true.mpr fun above habove => ?_
      rw [isDirectory, h.wellFormed'.find?_above hdirectory (mem_ancestors_iff.mp habove).1]
      rfl
    have hnever : ¬ (t.missing (locate path)).any (t.refuses .makeDirectory) = true := by
      intro hany
      obtain ⟨above, habove, -⟩ := List.any_eq_true.mp hany
      obtain ⟨hpre, hmissing⟩ := mem_missing_iff.mp habove
      rw [h.wellFormed'.find?_above hdirectory hpre] at hmissing
      cases hmissing
    rw [h.all_ancestors] at hall
    rw [h.any_missing] at hnever
    rw [hnone, hdirectory]
    simp only [hall, hnever]
    exact .inr ⟨_, t, rfl, rfl⟩

/-- Making directories goes the same way in both stores, and one stays ahead of the other. -/
theorem makeDirectories (h : Ahead made s t) (path : String) :
    (∃ e, s.makeDirectories path = .error e ∧ t.makeDirectories path = .error e) ∨
      ∃ s' t', s.makeDirectories path = .ok s' ∧ t.makeDirectories path = .ok t' ∧ Makes (locate path) s s' ∧
        Ahead made s' t' := by
  refine (h.makeDirectories_outcome path).imp_right ?_
  rintro ⟨s', t', hs', ht'⟩
  have hmakes := makes_of_makeDirectories h.wellFormed hs'
  have hmakes' := makes_of_makeDirectories h.wellFormed' ht'
  refine ⟨s', t', hs', ht', hmakes, ?_, fun other => ?_, hmakes.wellFormed h.wellFormed,
    hmakes'.wellFormed h.wellFormed'⟩
  · rw [hmakes'.refuses, h.refuses, hmakes.refuses]
  · by_cases hinside : other <+: locate path
    · exact .inl ((hmakes'.inside other hinside).trans (hmakes.inside other hinside).symm)
    · rw [hmakes.outside other hinside, hmakes'.outside other hinside, hmakes.refuses]
      exact h.turns other

end Ahead

/-! ### Looking at files -/

theorem hasEntry_of_missing (h : s.find? (locate path) = none) : s.hasEntry path = false := by
  rw [hasEntry]
  simp [h]

theorem Ahead.hasEntry (h : Ahead made s t) (hfree : ¬ made (locate path)) : t.hasEntry path = s.hasEntry path := by
  have hsame := h.find?_eq hfree
  rcases checkName_cases path with hname | hbad
  case inr => rw [hasEntry_of_badName hbad, hasEntry_of_badName hbad]
  cases hfound : s.find? (locate path) with
  | none => rw [hasEntry_of_missing hfound, hasEntry_of_missing (hsame.trans hfound)]
  | some node =>
    have hreach : s.Reaches (locate path) := h.wellFormed _ (Option.isSome_of_eq_some hfound)
    rw [hasEntry_eq hname hreach, hasEntry_eq hname (h.reaches hreach), hsame]

theorem Ahead.readText (h : Ahead made s t) (hfree : ¬ made (locate path)) (hentry : s.hasEntry path = true) :
    t.readText path = s.readText path := by
  obtain ⟨hname, hreach⟩ := hasEntry_ok hentry
  rw [readText_eq hname hreach, readText_eq hname (h.reaches hreach), h.find?_eq hfree, h.refuses]

/-! ### Writing files -/

theorem wellFormed_put_file (hs : s.WellFormed) (hreach : s.Reaches place) (hne : place ≠ [])
    (hold : s.find? place ≠ some .directory) (mode : Nat) : (s.put place (.file text mode)).WellFormed := by
  intro other hother above habove
  have habove_ne : s.find? above = some .directory → above ≠ place := by
    rintro hdirectory rfl
    exact hold hdirectory
  have hdirectory : s.find? above = some .directory := by
    by_cases hplace : other = place
    · exact hreach above (hplace ▸ habove)
    · rw [find?_put _ _ _ _ hne, if_neg hplace] at hother
      exact hs other hother above habove
  rw [find?_put _ _ _ _ hne, if_neg (habove_ne hdirectory), hdirectory]

theorem wellFormed_writeText (hs : s.WellFormed) (h : s.writeText path text = .ok t) : t.WellFormed := by
  obtain ⟨-, hreach, hcases⟩ := writeText_ok h
  obtain ⟨hold, hne⟩ := notDirectory_of_writeText h
  rcases hcases with ⟨-, -, rfl⟩ | ⟨old, mode, -, -, rfl⟩
  · exact wellFormed_put_file hs hreach hne hold plainMode
  · exact wellFormed_put_file hs hreach hne hold mode

theorem Ahead.writeText (h : Ahead made s t) (hreach : s.Reaches (locate path)) (hfree : ¬ made (locate path)) :
    (∃ e, s.writeText path text = .error e ∧ t.writeText path text = .error e) ∨
      ∃ s' t', s.writeText path text = .ok s' ∧ t.writeText path text = .ok t' ∧ Ahead made s' t' := by
  rcases checkName_cases path with hname | hbad
  case inr => exact .inl ⟨_, writeText_of_badName hbad, writeText_of_badName hbad⟩
  have houtcome : (∃ e, s.writeText path text = .error e ∧ t.writeText path text = .error e) ∨
      ∃ mode, s.writeText path text = .ok (s.put (locate path) (.file text mode)) ∧
        t.writeText path text = .ok (t.put (locate path) (.file text mode)) := by
    rw [writeText_eq hname hreach, writeText_eq hname (h.reaches hreach), h.find?_eq hfree, h.refuses]
    cases s.find? (locate path) with
    | none =>
      simp only
      split
      · exact .inl ⟨_, rfl, rfl⟩
      · exact .inr ⟨_, rfl, rfl⟩
    | some node =>
      cases node with
      | directory => exact .inl ⟨_, rfl, rfl⟩
      | file old mode =>
        simp only
        split
        · exact .inl ⟨_, rfl, rfl⟩
        · exact .inr ⟨_, rfl, rfl⟩
  refine houtcome.imp_right ?_
  rintro ⟨mode, hs', ht'⟩
  obtain ⟨-, hne⟩ := notDirectory_of_writeText hs'
  refine ⟨_, _, hs', ht', h.refuses, fun other => ?_, wellFormed_writeText h.wellFormed hs',
    wellFormed_writeText h.wellFormed' ht'⟩
  rw [find?_put _ _ _ _ hne, find?_put _ _ _ _ hne]
  by_cases hother : other = locate path
  · rw [if_pos hother, if_pos hother]
    exact .inl rfl
  · rw [if_neg hother, if_neg hother]
    exact h.turns other

end Store

end BuildPlan
