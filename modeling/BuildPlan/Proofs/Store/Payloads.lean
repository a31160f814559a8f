import BuildPlan.Proofs.Path.Layout
import BuildPlan.Proofs.Store.Operations

/-!
# Payload files that are kept

A run makes the directory of payload files, and in it files, which it writes and whose modes it sets.
`Store.Becomes` says what can become of a store in this way. If the store of one run can become that of another one,
keeping a payload ends in the same way in both, and the stores go on like this.
-/

namespace BuildPlan

namespace Store

variable {data place : Location} {s t u s' t' : Store} {path text name : String}

/-! ### What can become of a store -/

/-- What can become of what is found at a place, where `data` is the directory of payload files. -/
inductive Turns (data : Location) (refuses : Access → Location → Bool) (place : Location) :
    Option Node → Option Node → Prop
  | same (found : Option Node) : Turns data refuses place found found
  | directory (hplace : place = data) (hmake : refuses .makeDirectory place = false) :
      Turns data refuses place none (some .directory)
  | created {text : String} {mode : Nat} (hplace : ∃ name, place = data ++ [name])
      (hcreate : refuses .create place = false) (hmode : mode = plainMode ∨ refuses .changeMode place = false) :
      Turns data refuses place none (some (.file text mode))
  | rewritten {text text' : String} {mode mode' : Nat} (hplace : ∃ name, place = data ++ [name])
      (htext : text' = text ∨ refuses .write place = false)
      (hmode : mode' = mode ∨ refuses .changeMode place = false) :
      Turns data refuses place (some (.file text mode)) (some (.file text' mode'))

theorem Turns.trans {refuses : Access → Location → Bool} {a b c : Option Node} (hab : Turns data refuses place a b)
    (hbc : Turns data refuses place b c) : Turns data refuses place a c := by
  cases hab with
  | same => exact hbc
  | directory hplace hmake =>
    cases hbc
    exact .directory hplace hmake
  | created hplace hcreate hmode =>
    cases hbc with
    | same => exact .created hplace hcreate hmode
    | rewritten _ _ hmode' =>
      refine .created hplace hcreate ?_
      rcases hmode' with rfl | hchange
      · exact hmode
      · exact .inr hchange
  | rewritten hplace htext hmode =>
    cases hbc with
    | same => exact .rewritten hplace htext hmode
    | rewritten _ htext' hmode' =>
      refine .rewritten hplace ?_ ?_
      · rcases htext' with rfl | hwrite
        · exact htext
        · exact .inr hwrite
      · rcases hmode' with rfl | hchange
        · exact hmode
        · exact .inr hchange

/-- What can become of a store while payload files are kept in a directory. -/
structure Becomes (data : Location) (s t : Store) : Prop where
  refuses : t.refuses = s.refuses
  turns : ∀ place, Turns data s.refuses place (s.find? place) (t.find? place)

theorem Becomes.lasting : Lasting (Becomes data) where
  refl s := ⟨rfl, fun place => .same _⟩
  trans hst htu := by
    refine ⟨htu.refuses.trans hst.refuses, fun place => (hst.turns place).trans ?_⟩
    rw [← hst.refuses]
    exact htu.turns place

theorem Becomes.reaches (h : s.Becomes data t) (hreach : s.Reaches place) : t.Reaches place := by
  intro above habove
  have hturn := h.turns above
  rw [hreach above habove] at hturn
  generalize t.find? above = found at hturn ⊢
  cases hturn
  rfl

/-- Two stores are the same but for one place. -/
structure SameBut (place : Location) (s t : Store) : Prop where
  refuses : t.refuses = s.refuses
  find? : ∀ other, other ≠ place → t.find? other = s.find? other

theorem SameBut.refl (place : Location) (s : Store) : SameBut place s s := ⟨rfl, fun _ _ => rfl⟩

theorem SameBut.put (hplace : place ≠ []) (s : Store) (node : Node) : SameBut place s (s.put place node) :=
  ⟨rfl, fun other hother => by rw [find?_put _ _ _ _ hplace, if_neg hother]⟩

theorem SameBut.trans (hst : SameBut place s t) (htu : SameBut place t u) : SameBut place s u :=
  ⟨htu.refuses.trans hst.refuses, fun other hother => (htu.find? other hother).trans (hst.find? other hother)⟩

theorem Becomes.update (h : s.Becomes data t) (hs : SameBut place s s') (ht : SameBut place t t')
    (hturn : Turns data s.refuses place (s'.find? place) (t'.find? place)) : s'.Becomes data t' := by
  refine ⟨by rw [ht.refuses, h.refuses, hs.refuses], fun other => ?_⟩
  rw [hs.refuses]
  by_cases hother : other = place
  · rwa [hother]
  · rw [hs.find? other hother, ht.find? other hother]
    exact h.turns other

/-! ### What keeping a payload does to a store -/

/-- A store grows in no other way than by payload files and their directory. -/
structure Develops (data : Location) (s t : Store) : Prop where
  grows : s.Grows t
  becomes : s.Becomes data t

theorem Develops.lasting : Lasting (Develops data) where
  refl s := ⟨Grows.lasting.refl s, Becomes.lasting.refl s⟩
  trans hst htu := ⟨Grows.lasting.trans hst.grows htu.grows, Becomes.lasting.trans hst.becomes htu.becomes⟩

theorem ne_nil_of_find?_eq_none (h : s.find? place = none) : place ≠ [] := by
  intro hnil
  rw [find?, if_pos hnil] at h
  cases h

theorem develops_put_directory (hnone : s.find? data = none) (hmake : s.refuses .makeDirectory data = false) :
    s.Develops data (s.put data .directory) := by
  have hne := ne_nil_of_find?_eq_none hnone
  refine ⟨grows_put_directory (fun text mode h => nomatch hnone.symm.trans h) hne, ?_⟩
  refine (Becomes.lasting.refl s).update (.refl data s) (.put hne s _) ?_
  rw [hnone, find?_put _ _ _ _ hne, if_pos rfl]
  exact .directory rfl hmake

theorem develops_put_file {mode : Nat} (hname : name ≠ buildFileName)
    (hturn : Turns data s.refuses (data ++ [name]) (s.find? (data ++ [name])) (some (.file text mode))) :
    s.Develops data (s.put (data ++ [name]) (.file text mode)) := by
  have hne : data ++ [name] ≠ [] := List.concat_ne_nil _ _
  refine ⟨grows_put_file hname, (Becomes.lasting.refl s).update (.refl _ s) (.put hne s _) ?_⟩
  rwa [find?_put _ _ _ _ hne, if_pos rfl]

theorem develops_makeDirectories (hpath : locate path = data) (hs : s.Reaches data)
    (h : s.makeDirectories path = .ok t) : s.Develops data t ∧ t.find? data = some .directory := by
  obtain ⟨hname, -⟩ := makeDirectories_ok h
  subst hpath
  rw [makeDirectories_eq hname hs] at h
  split at h
  case h_1 hdirectory =>
    cases h
    exact ⟨Develops.lasting.refl s, hdirectory⟩
  case h_2 => cases h
  case h_3 hnone =>
    split at h
    · cases h
    case isFalse hmake =>
      cases h
      refine ⟨develops_put_directory hnone (Bool.eq_false_iff.mpr hmake), ?_⟩
      rw [find?_put _ _ _ _ (ne_nil_of_find?_eq_none hnone), if_pos rfl]

theorem develops_keepText (hpath : locate path = data ++ [name]) (hbuild : name ≠ buildFileName)
    (hs : s.Reaches (locate path)) (h : Session.keepText s path text = .ok t) : s.Develops data t := by
  rcases checkName_cases path with hname | hbad
  case inr =>
    rw [keepText_of_badName hbad] at h
    cases h
  rw [keepText_eq hname hs, hpath] at h
  split at h
  case h_1 hnone =>
    split at h
    · cases h
    case isFalse hcreate =>
      cases h
      refine develops_put_file hbuild ?_
      rw [hnone]
      exact .created ⟨name, rfl⟩ (Bool.eq_false_iff.mpr hcreate) (.inl rfl)
  case h_2 => cases h
  case h_3 old mode hfound =>
    split at h
    · cases h
    case isFalse hrefuses =>
      cases h
      refine develops_put_file hbuild ?_
      rw [hfound]
      refine .rewritten ⟨name, rfl⟩ ?_ (.inl rfl)
      by_cases hold : old = text
      · exact .inl hold.symm
      · exact .inr (Bool.eq_false_iff.mpr fun hwrite => hrefuses (.inr ⟨hold, hwrite⟩))

theorem develops_setMode (hpath : locate path = data ++ [name]) (hbuild : name ≠ buildFileName)
    (hs : s.Reaches (locate path)) {mode : Nat} (h : s.setMode path mode = .ok t) : s.Develops data t := by
  rcases checkName_cases path with hname | hbad
  case inr =>
    rw [setMode, hbad] at h
    cases h
  rw [setMode_eq hname hs, hpath] at h
  split at h
  · cases h
  case isFalse hchange =>
    split at h
    · cases h
    · cases h
      exact Develops.lasting.refl s
    case h_3 old mode hfound =>
      cases h
      refine develops_put_file hbuild ?_
      rw [hfound]
      exact .rewritten ⟨name, rfl⟩ (.inl rfl) (.inr (Bool.eq_false_iff.mpr hchange))

/-! ### The stages of one payload -/

/-- Two operations fail in the same way, or they end in stores that go together. -/
inductive BothEnd (R : Store → Store → Prop) : Outcome Store → Outcome Store → Prop
  | ok {s t : Store} (h : R s t) : BothEnd R (.ok s) (.ok t)
  | error (e : FileFailure) : BothEnd R (.error e) (.error e)

theorem makeDirectories_inStep (hpath : locate path = data) (hs : s.Reaches data) (h : s.Becomes data t) :
    BothEnd (fun s' t' => SameBut data s s' ∧ SameBut data t t' ∧ s'.find? data = some .directory ∧
      t'.find? data = some .directory) (s.makeDirectories path) (t.makeDirectories path) := by
  rcases checkName_cases path with hname | hbad
  case inr =>
    rw [makeDirectories_of_badName hbad, makeDirectories_of_badName hbad]
    exact .error _
  have ht := h.reaches hs
  have hturn := h.turns data
  subst hpath
  rw [makeDirectories_eq hname hs, makeDirectories_eq hname ht, h.refuses]
  have hput : ∀ u : Store, u.find? (locate path) = none →
      SameBut (locate path) u (u.put (locate path) .directory) ∧
        (u.put (locate path) .directory).find? (locate path) = some .directory := by
    intro u hnone
    have hne := ne_nil_of_find?_eq_none hnone
    exact ⟨.put hne u _, by rw [find?_put _ _ _ _ hne, if_pos rfl]⟩
  generalize hsfound : s.find? (locate path) = a at hturn ⊢
  generalize htfound : t.find? (locate path) = b at hturn ⊢
  cases hturn with
  | same =>
    cases a with
    | none =>
      simp only
      split
      · exact .error _
      · exact .ok ⟨(hput s hsfound).1, (hput t htfound).1, (hput s hsfound).2, (hput t htfound).2⟩
    | some node =>
      cases node with
      | directory => exact .ok ⟨.refl _ s, .refl _ t, hsfound, htfound⟩
      | file old mode => exact .error _
  | directory _ hmake =>
    simp only [hmake]
    exact .ok ⟨(hput s hsfound).1, .refl _ t, (hput s hsfound).2, htfound⟩
  | created hplace =>
    obtain ⟨name, hplace⟩ := hplace
    exact absurd (List.self_eq_append_right.mp hplace) (List.cons_ne_nil _ _)
  | rewritten hplace =>
    obtain ⟨name, hplace⟩ := hplace
    exact absurd (List.self_eq_append_right.mp hplace) (List.cons_ne_nil _ _)

/-- A file has been given a text in two stores. Its modes may still differ if they can be changed. -/
structure BothHave (place : Location) (text : String) (s t s' t' : Store) : Prop where
  first : SameBut place s s'
  second : SameBut place t t'
  found : ∃ mode mode', s'.find? place = some (.file text mode) ∧ t'.find? place = some (.file text mode') ∧
    (mode' = mode ∨ s.refuses .changeMode place = false)

theorem BothHave.put (hplace : place ≠ []) {mode mode' : Nat} (s t : Store)
    (h : mode' = mode ∨ s.refuses .changeMode place = false) :
    BothHave place text s t (s.put place (.file text mode)) (t.put place (.file text mode')) := by
  refine ⟨.put hplace _ _, .put hplace _ _, mode, mode', ?_, ?_, h⟩
  · rw [find?_put _ _ _ _ hplace, if_pos rfl]
  · rw [find?_put _ _ _ _ hplace, if_pos rfl]

/-- A file has the text in both runs afterwards. -/
theorem keepText_inStep (hname : checkName path = .ok ()) (hpath : locate path = data ++ [name])
    (hs : s.Reaches (locate path)) (h : s.Becomes data t) (howns : s.OwnsWhatItMakes) :
    BothEnd (BothHave (locate path) text s t) (Session.keepText s path text) (Session.keepText t path text) := by
  have hne : locate path ≠ [] := by
    rw [hpath]
    exact List.concat_ne_nil _ _
  have hturn := h.turns (locate path)
  rw [keepText_eq hname hs, keepText_eq hname (h.reaches hs), h.refuses]
  generalize s.find? (locate path) = a at hturn ⊢
  generalize t.find? (locate path) = b at hturn ⊢
  cases hturn with
  | same =>
    cases a with
    | none =>
      simp only
      split
      · exact .error _
      · exact .ok (.put hne s t (.inl rfl))
    | some node =>
      cases node with
      | directory => exact .error _
      | file old mode =>
        simp only
        split
        · exact .error _
        · exact .ok (.put hne s t (.inl rfl))
  | directory hplace =>
    rw [hpath] at hplace
    exact absurd (List.self_eq_append_right.mp hplace.symm) (List.cons_ne_nil _ _)
  | created _ hcreate hmode =>
    obtain ⟨hread, hwrite⟩ := howns _ hcreate
    simp only [hcreate, hread, hwrite]
    simpa using BothEnd.ok (BothHave.put hne s t hmode)
  | @rewritten old old' mode mode' _ htext hmode =>
    -- where the texts differ, the file can be written
    have hwrite : (old' ≠ text ∧ s.refuses .write (locate path) = true) ↔
        (old ≠ text ∧ s.refuses .write (locate path) = true) := by
      rcases htext with rfl | hwrite
      · exact Iff.rfl
      · simp [hwrite]
    simp only [hwrite]
    split
    · exact .error _
    · exact .ok (.put hne s t hmode)

/-! ### Two runs -/

/-- The second run starts with the store that the first one ends with, and what it changes it leaves as the first run
does: `s` is the store of the first run, and `t` that of the second. -/
structure Rejoins (data : Location) (final s t : Store) : Prop where
  becomes : s.Becomes data t
  reaches : s.Reaches data
  owns : s.OwnsWhatItMakes
  settled : ∀ place, t.find? place = s.find? place ∨ t.find? place = final.find? place

theorem SameBut.reaches (h : SameBut place s t) {below : Location} (hlength : below.length ≤ place.length)
    (hs : s.Reaches below) : t.Reaches below := by
  intro above habove
  have hne : above ≠ place := by
    rintro rfl
    exact absurd (length_lt_of_mem_ancestors habove) (Nat.not_lt.mpr hlength)
  rw [h.find? above hne]
  exact hs above habove

theorem notDirectory_of_writeText {path text : String} (h : s.writeText path text = .ok t) :
    s.find? (locate path) ≠ some .directory ∧ locate path ≠ [] := by
  have hold : s.find? (locate path) ≠ some .directory := by
    intro hdirectory
    obtain ⟨-, -, ⟨hnone, -⟩ | ⟨old, mode, hfile, -⟩⟩ := writeText_ok h
    · rw [hdirectory] at hnone
      cases hnone
    · rw [hdirectory] at hfile
      cases hfile
  refine ⟨hold, fun hroot => hold ?_⟩
  rw [hroot]
  rfl

theorem found_of_writeText {path text : String} (h : s.writeText path text = .ok t) :
    checkName path = .ok () ∧ t.Reaches (locate path) ∧ ∃ mode, t.find? (locate path) = some (.file text mode) := by
  obtain ⟨hname, hreach, hcases⟩ := writeText_ok h
  obtain ⟨-, hne⟩ := notDirectory_of_writeText h
  have hput : ∃ mode, t = s.put (locate path) (.file text mode) := by
    rcases hcases with ⟨-, -, ht⟩ | ⟨old, mode, -, -, ht⟩
    · exact ⟨plainMode, ht⟩
    · exact ⟨mode, ht⟩
  obtain ⟨mode, rfl⟩ := hput
  refine ⟨hname, (SameBut.put hne s _).reaches (Nat.le_refl _) hreach, mode, ?_⟩
  rw [find?_put _ _ _ _ hne, if_pos rfl]

theorem Rejoins.update {final : Store} (h : Rejoins data final s t) (hlength : data.length ≤ place.length)
    (hs : SameBut place s s') (ht : SameBut place t t') (hsame : t'.find? place = s'.find? place) :
    Rejoins data final s' t' := by
  refine ⟨h.becomes.update hs ht (hsame ▸ .same _), hs.reaches hlength h.reaches, ?_, fun other => ?_⟩
  · intro other hcreate
    rw [hs.refuses] at hcreate ⊢
    exact h.owns other hcreate
  · by_cases hother : other = place
    · rw [hother]
      exact .inl hsame
    · rw [hs.find? other hother, ht.find? other hother]
      exact h.settled other

variable {w : Workspace}

theorem locate_payload (w : Workspace) (payload : Payload) :
    locate (tidyText (payload.file w)) = w.dataPlace ++ [payload.fileName] :=
  locate_file (isName_hexChecksum _) _

theorem locate_parentPath_payload (w : Workspace) (payload : Payload) :
    locate (parentPath (tidyText (payload.file w))) = w.dataPlace :=
  locate_parentPath (isName_hexChecksum _) _

theorem fileName_ne_buildFileName (payload : Payload) : payload.fileName ≠ buildFileName := by
  intro h
  refine dot_notMem_hexChecksum payload.text ?_
  change '.' ∈ payload.fileName.toList
  rw [h]
  decide

theorem develops_keepPayload (hs : s.Reaches w.dataPlace) (payload : Payload) :
    s.Develops w.dataPlace (Session.keepPayload s w payload).2 := by
  have hpath := locate_payload w payload
  have hbuild := fileName_ne_buildFileName payload
  unfold Session.keepPayload
  cases hmake : s.makeDirectories (parentPath (tidyText (payload.file w))) with
  | error e =>
    simp only [hmake]
    exact Develops.lasting.refl s
  | ok s₁ =>
    obtain ⟨h₁, hdirectory⟩ := develops_makeDirectories (locate_parentPath_payload w payload) hs hmake
    have hreach₁ : s₁.Reaches (locate (tidyText (payload.file w))) := by
      rw [hpath]
      exact reaches_concat_iff.mpr ⟨h₁.becomes.reaches hs, hdirectory⟩
    cases hkeep : Session.keepText s₁ (tidyText (payload.file w)) payload.text with
    | error e =>
      simp only [hmake, hkeep]
      exact h₁
    | ok s₂ =>
      have h₂ := develops_keepText hpath hbuild hreach₁ hkeep
      have h₁₂ := Develops.lasting.trans h₁ h₂
      cases hmode : s₂.setMode (tidyText (payload.file w)) payload.mode with
      | error e =>
        simp only [hmake, hkeep, hmode]
        exact h₁₂
      | ok s₃ =>
        simp only [hmake, hkeep, hmode]
        exact Develops.lasting.trans h₁₂ (develops_setMode hpath hbuild (h₂.becomes.reaches hreach₁) hmode)

/-- **Keeping a payload ends in the same way in both runs.** -/
theorem keepPayload_inStep {final : Store} (h : Rejoins w.dataPlace final s t) (payload : Payload) :
    (Session.keepPayload t w payload).1 = (Session.keepPayload s w payload).1 ∧
      Rejoins w.dataPlace final (Session.keepPayload s w payload).2 (Session.keepPayload t w payload).2 := by
  have hpath := locate_payload w payload
  have hlength : w.dataPlace.length ≤ (locate (tidyText (payload.file w))).length := by
    rw [hpath, List.length_append]
    exact Nat.le_add_right _ _
  have hmake := makeDirectories_inStep (locate_parentPath_payload w payload) h.reaches h.becomes
  unfold Session.keepPayload
  dsimp only
  generalize s.makeDirectories (parentPath (tidyText (payload.file w))) = made at hmake ⊢
  generalize t.makeDirectories (parentPath (tidyText (payload.file w))) = made' at hmake ⊢
  cases hmake with
  | error e => exact ⟨rfl, h⟩
  | @ok s₁ t₁ hmade =>
    obtain ⟨hs, ht, hsdir, htdir⟩ := hmade
    have h₁ := h.update (Nat.le_refl w.dataPlace.length) hs ht (htdir.trans hsdir.symm)
    have hreach₁ : s₁.Reaches (locate (tidyText (payload.file w))) := by
      rw [hpath]
      exact reaches_concat_iff.mpr ⟨h₁.reaches, hsdir⟩
    dsimp only
    rcases checkName_cases (tidyText (payload.file w)) with hname | hbad
    case inr =>
      rw [keepText_of_badName hbad, keepText_of_badName hbad]
      exact ⟨rfl, h₁⟩
    have hkeep : BothEnd (BothHave (locate (tidyText (payload.file w))) payload.text s₁ t₁) _ _ :=
      keepText_inStep hname hpath hreach₁ h₁.becomes h₁.owns
    generalize Session.keepText s₁ (tidyText (payload.file w)) payload.text = kept at hkeep ⊢
    generalize Session.keepText t₁ (tidyText (payload.file w)) payload.text = kept' at hkeep ⊢
    cases hkeep with
    | error e => exact ⟨rfl, h₁⟩
    | @ok s₂ t₂ hkept =>
      obtain ⟨hs₂, ht₂, mode, mode', hsfound, htfound, hmodes⟩ := hkept
      have hsreach := hs₂.reaches (Nat.le_refl _) hreach₁
      have htreach := ht₂.reaches (Nat.le_refl _) (h₁.becomes.reaches hreach₁)
      have hrefuses : t₂.refuses = s₂.refuses := by rw [ht₂.refuses, h₁.becomes.refuses, hs₂.refuses]
      have hne : locate (tidyText (payload.file w)) ≠ [] := by
        rw [hpath]
        exact List.concat_ne_nil _ _
      dsimp only
      rw [setMode_eq hname hsreach, setMode_eq hname htreach, hrefuses, hsfound, htfound]
      by_cases hchange : s₂.refuses .changeMode (locate (tidyText (payload.file w))) = true
      · -- the modes are the same already, since they cannot be changed
        have hmode : mode' = mode := by
          refine hmodes.resolve_right fun hallowed => ?_
          rw [hs₂.refuses, hallowed] at hchange
          cases hchange
        have h₂ : Rejoins w.dataPlace final s₂ t₂ := h₁.update hlength hs₂ ht₂ (by rw [htfound, hsfound, hmode])
        rw [if_pos hchange, if_pos hchange]
        exact ⟨rfl, h₂⟩
      · have hboth : ∀ u : Store, (u.put (locate (tidyText (payload.file w)))
            (.file payload.text (payload.mode % 0o10000))).find? (locate (tidyText (payload.file w))) =
            some (.file payload.text (payload.mode % 0o10000)) := fun u => by
          rw [find?_put _ _ _ _ hne, if_pos rfl]
        have h₂ := h₁.update hlength (hs₂.trans (.put hne s₂ _)) (ht₂.trans (.put hne t₂ _))
          ((hboth t₂).trans (hboth s₂).symm)
        rw [if_neg hchange, if_neg hchange]
        exact ⟨rfl, h₂⟩

end Store

end BuildPlan
