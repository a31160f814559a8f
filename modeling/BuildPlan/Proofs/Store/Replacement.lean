import BuildPlan.Build.Generator
import BuildPlan.Proofs.Build.InStep
import BuildPlan.Proofs.Path.Aliasing
import BuildPlan.Proofs.Store.Directories
import Mathlib.Data.List.Perm.Subperm

/-!
# Replacing a file

A file is replaced by way of a temporary one, which is made beside it where nothing is, is filled, and is moved onto it.
Each of these steps may be refused. `Store.replaceFile_replaces` says that either the file has the new text afterwards or
all files are as they were, and `replaceFile_allOrNothing` that this goes for the build files of every generator.
-/

namespace BuildPlan

/-! ### Characters of shown paths -/

namespace Lexical

theorem mem_of_mem_split {c : Char} {p part : List Char} (h : part ∈ split p) (hc : c ∈ part) : c ∈ p := by
  induction p generalizing part with
  | nil =>
    rw [List.mem_singleton.mp h] at hc
    exact hc
  | cons d p ih =>
    by_cases hd : d = '/'
    · subst hd
      rw [split] at h
      rcases List.mem_cons.mp h with rfl | h
      · cases hc
      · exact List.mem_cons_of_mem _ (ih h hc)
    · obtain ⟨first, parts, hsplit, hcons⟩ := split_cons_of_ne hd p
      rw [hsplit] at ih
      rw [hcons] at h
      rcases List.mem_cons.mp h with rfl | h
      · rcases List.mem_cons.mp hc with rfl | hc
        · exact List.mem_cons_self
        · exact List.mem_cons_of_mem _ (ih List.mem_cons_self hc)
      · exact List.mem_cons_of_mem _ (ih (List.mem_cons_of_mem _ h) hc)

theorem mem_intercalate_slash {c : Char} {parts : List (List Char)} (h : c ∈ ['/'].intercalate parts) :
    c = '/' ∨ ∃ part ∈ parts, c ∈ part := by
  induction parts with
  | nil => simp at h
  | cons part rest ih =>
    by_cases hnil : rest = []
    · subst hnil
      rw [List.intercalate_singleton] at h
      exact .inr ⟨part, List.mem_singleton_self part, h⟩
    · rw [List.intercalate_cons_of_ne_nil hnil, List.mem_append, List.mem_append] at h
      rcases h with (h | h) | h
      · exact .inr ⟨part, List.mem_cons_self, h⟩
      · exact .inl (List.mem_singleton.mp h)
      · refine (ih h).imp_right ?_
        rintro ⟨other, hother, hc⟩
        exact ⟨other, List.mem_cons_of_mem _ hother, hc⟩

theorem mem_of_mem_tidy {c : Char} {p : List Char} (h : c ∈ tidy p) : c ∈ p ∨ c = '/' ∨ c = '.' := by
  obtain ⟨root, hroot, htidy⟩ := tidy_eq p
  rw [htidy] at h
  split at h
  · exact .inr (.inr (List.mem_singleton.mp h))
  rcases List.mem_append.mp h with h | h
  · have hslash : c = '/' := by
      rcases hroot with rfl | rfl | rfl <;> simp_all
    exact .inr (.inl hslash)
  · rcases mem_intercalate_slash h with hslash | ⟨part, hpart, hc⟩
    · exact .inr (.inl hslash)
    · exact .inl (mem_of_mem_split (List.mem_filter.mp hpart).1 hc)

end Lexical

/-- The text can be part of a file name. -/
def Nameable (text : String) : Prop := '\x00' ∉ text.toList

instance (text : String) : Decidable (Nameable text) := inferInstanceAs (Decidable (_ ∉ _))

theorem nameable_tidyText {path : String} (h : Nameable path) : Nameable (tidyText path) := by
  intro hmem
  rw [tidyText, String.toList_ofList] at hmem
  rcases Lexical.mem_of_mem_tidy hmem with hpath | hslash | hdot
  · exact h hpath
  · exact absurd hslash (by decide)
  · exact absurd hdot (by decide)

theorem nameable_joinText {a b : String} (ha : Nameable a) (hb : Nameable b) : Nameable (joinText a b) := by
  intro hmem
  rw [joinText, String.toList_ofList, Lexical.join] at hmem
  split at hmem
  · exact hb hmem
  split at hmem
  · exact (List.mem_append.mp hmem).elim ha hb
  · rcases List.mem_append.mp hmem with hmem | hmem
    · exact ha hmem
    · exact (List.mem_cons.mp hmem).elim (by decide) hb

namespace Store

variable {s t u : Store} {path text name : String} {place directory : Location} {fuel : Nat}
  {changed : Location → Prop}

theorem checkName_of_nameable (h : Nameable path) : checkName path = .ok () := by
  rw [checkName, if_neg]
  simpa [Nameable] using h

theorem nameable_parentPath (h : Nameable path) : Nameable (parentPath path) := by
  refine nameable_tidyText fun hmem => nameable_tidyText h ?_
  rw [directoryOf, String.toList_ofList] at hmem
  exact (Lexical.isPrefix_dirname _).subset hmem

/-! ### Files that stay -/

/-- Files come, go and change at certain places only. -/
def ChangesAt (changed : Location → Prop) (s t : Store) : Prop :=
  ∀ place, ¬ changed place → ∀ text mode,
    t.find? place = some (.file text mode) ↔ s.find? place = some (.file text mode)

theorem ChangesAt.lasting (changed : Location → Prop) : Lasting (ChangesAt changed) where
  refl _ _ _ _ _ := Iff.rfl
  trans hst htu place hplace text mode := (htu place hplace text mode).trans (hst place hplace text mode)

theorem ChangesAt.mono {more : Location → Prop} (h : s.ChangesAt changed t) (himp : ∀ place, changed place → more place) :
    s.ChangesAt more t := fun place hplace => h place fun hchanged => hplace (himp place hchanged)

theorem changesAt_makeDirectories (h : s.makeDirectories path = .ok t) : s.ChangesAt changed t := by
  obtain ⟨-, -, hfiles⟩ := makeDirectories_ok h
  exact fun _ _ _ _ => hfiles

theorem reported_of_makeDirectories {e : FileFailure} (hname : checkName path = .ok ())
    (h : s.makeDirectories path = .error e) : ∃ error, e = .reported error := by
  rw [makeDirectories_of_name hname] at h
  simp only [forM_checkAccess] at h
  split at h
  · cases h
  · cases h
    exact ⟨_, rfl⟩
  · split at h
    · split at h
      · cases h
        exact ⟨_, rfl⟩
      · cases h
    · cases h
      exact ⟨_, rfl⟩

/-! ### The temporary file -/

theorem mem_keys_of_taken (hplace : place ≠ []) (h : s.find? place ≠ none) : place ∈ Assoc.keys s.entries := by
  rw [find?, if_neg hplace] at h
  obtain ⟨node, hnode⟩ := Option.ne_none_iff_exists'.mp h
  exact Assoc.mem_keys_of_find? hnode

theorem length_dotted (name : String) : ("." ++ name ++ ".").length = name.length + 2 := by
  have hdot : ".".length = 1 := rfl
  rw [String.length_append, String.length_append, hdot]
  omega

theorem freshPlace_cases (s : Store) (directory : Location) (fuel : Nat) (name : String) :
    s.find? (s.freshPlace directory name fuel) = none ∨
      ∃ places : List Location, places.length = fuel + 1 ∧ places.Nodup ∧
        (∀ place ∈ places, place ∈ Assoc.keys s.entries) ∧
        ∀ place ∈ places, ∃ last : String, place = directory ++ [last] ∧ name.length + 2 ≤ last.length := by
  induction fuel generalizing name with
  | zero =>
    by_cases hfree : s.find? (directory ++ ["." ++ name ++ "."]) = none
    · exact .inl hfree
    · refine .inr ⟨[directory ++ ["." ++ name ++ "."]], rfl, List.pairwise_singleton _ _, ?_, ?_⟩
      · simpa using mem_keys_of_taken (List.concat_ne_nil _ _) hfree
      · exact List.forall_mem_singleton.mpr ⟨_, rfl, (length_dotted name).ge⟩
  | succ fuel ih =>
    rw [freshPlace]
    by_cases hfree : s.find? (directory ++ ["." ++ name ++ "."]) = none
    · simp [hfree]
    · simp only [hfree, Option.isNone_iff_eq_none, if_false]
      refine (ih (name ++ ".")).imp_right ?_
      rintro ⟨places, hlength, hnodup, hkeys, hlast⟩
      refine ⟨(directory ++ ["." ++ name ++ "."]) :: places, by simp [hlength], ?_, ?_, ?_⟩
      · refine List.nodup_cons.mpr ⟨fun hmem => ?_, hnodup⟩
        obtain ⟨last, hsame, hlong⟩ := hlast _ hmem
        obtain rfl : "." ++ name ++ "." = last := by simpa using hsame
        rw [length_dotted, String.length_append] at hlong
        have hdot : ".".length = 1 := rfl
        omega
      · exact List.forall_mem_cons.mpr ⟨mem_keys_of_taken (List.concat_ne_nil _ _) hfree, hkeys⟩
      · refine List.forall_mem_cons.mpr ⟨⟨_, rfl, (length_dotted name).ge⟩, fun place hplace => ?_⟩
        obtain ⟨last, hsame, hlong⟩ := hlast place hplace
        rw [String.length_append] at hlong
        exact ⟨last, hsame, by omega⟩

/-- Nothing is where the temporary file is made. -/
theorem find?_freshPlace (s : Store) (directory : Location) (name : String) :
    s.find? (s.freshPlace directory name s.entries.length) = none := by
  rcases freshPlace_cases s directory s.entries.length name with hfree | ⟨places, hlength, hnodup, hkeys, -⟩
  · exact hfree
  · have hle := (List.subperm_of_subset hnodup hkeys).length_le
    rw [Assoc.keys, List.length_map] at hle
    omega

theorem find?_remove (hplace : place ≠ []) (other : Location) :
    (s.remove place).find? other = if other = place then none else s.find? other := by
  unfold find? remove
  by_cases hother : other = []
  · simp [hother, hplace.symm]
  · simp [hother, Assoc.find?_erase]

theorem find?_remove_of_sameBut (h : SameBut place s t) (hfree : s.find? place = none) (other : Location) :
    (t.remove place).find? other = s.find? other := by
  rw [find?_remove (ne_nil_of_find?_eq_none hfree)]
  split
  case isTrue hother => rw [hother, hfree]
  case isFalse hother => exact h.find? other hother

/-- The store in which a temporary file has its text and its mode. -/
def filled (s : Store) (temporary : Location) (text : String) : Store :=
  (s.put temporary (.file text 0o600)).put temporary (.file text plainMode)

theorem sameBut_filled (hplace : place ≠ []) : SameBut place s (s.filled place text) :=
  (SameBut.put hplace s _).trans (.put hplace _ _)

theorem fillAndMove_eq (s : Store) (temporary place : Location) (path text : String) :
    s.fillAndMove temporary place path text =
      if s.refuses .write temporary ∨ s.refuses .changeMode temporary then failAt .denied temporaryName
      else (s.filled temporary text).moveOnto temporary place path := by
  have hrefuses : ∀ node, (s.put temporary node).refuses = s.refuses := fun _ => rfl
  unfold fillAndMove
  simp only [checkAccess, hrefuses]
  by_cases hwrite : s.refuses .write temporary = true
  · simp only [hwrite]
    rfl
  · by_cases hmode : s.refuses .changeMode temporary = true
    · simp only [hwrite, hmode]
      rfl
    · simp only [hwrite, hmode]
      rfl

theorem moveOnto_cases {temporary : Location} {mode : Nat} (h : s.find? temporary = some (.file text mode))
    (place : Location) (path : String) :
    (∃ e, s.moveOnto temporary place path = .error (.reported e)) ∨
      place ≠ [] ∧ s.moveOnto temporary place path = .ok ((s.remove temporary).put place (.file text mode)) := by
  unfold moveOnto
  rw [h]
  by_cases hrefuses : s.refuses .rename place = true
  · exact .inl ⟨_, by simp only [hrefuses]; rfl⟩
  · simp only [hrefuses]
    cases hplace : s.find? place with
    | none => exact .inr ⟨ne_nil_of_find?_eq_none hplace, rfl⟩
    | some node =>
      cases node with
      | directory => exact .inl ⟨_, rfl⟩
      | file old oldMode =>
        refine .inr ⟨fun hroot => ?_, rfl⟩
        rw [hroot] at hplace
        cases hplace

/-- Filling the temporary file and moving it fails, or it puts a file with the text at the place. -/
theorem fillAndMove_cases {temporary : Location} (htemporary : temporary ≠ []) (s : Store) (place : Location)
    (path text : String) :
    (∃ e, s.fillAndMove temporary place path text = .error (.reported e)) ∨
      place ≠ [] ∧ s.fillAndMove temporary place path text =
        .ok (((s.filled temporary text).remove temporary).put place (.file text plainMode)) := by
  have hfound : (s.filled temporary text).find? temporary = some (.file text plainMode) := by
    rw [filled, find?_put _ _ _ _ htemporary, if_pos rfl]
  rw [fillAndMove_eq]
  split
  · exact .inl ⟨_, rfl⟩
  · exact moveOnto_cases hfound place path

/-! ### All or nothing -/

/-- A file has been replaced by one with the text, or an error has been raised and all files are as they were. -/
inductive Replaces (s : Store) (path text : String) : Except Failure Unit × Store → Prop
  | done {t : Store} (hfile : t.find? (locate path) = some (.file text plainMode))
      (hothers : s.ChangesAt (· = locate path) t) : Replaces s path text (.ok (), t)
  | failed {t : Store} (e : FileError) (hsame : s.ChangesAt (fun _ => False) t) :
      Replaces s path text (.error (.of (.unwritable path e)), t)

/-- **Replacing a file replaces it or changes no file**, and a temporary file is never left behind. -/
theorem replaceFile_replaces (s : Store) (hpath : Nameable path) (text : String) :
    s.Replaces path text (replaceFile path text s) := by
  unfold replaceFile writeAtomically
  rw [checkName_of_nameable hpath]
  cases hmake : s.makeDirectories (parentPath path) with
  | error e =>
    obtain ⟨error, rfl⟩ := reported_of_makeDirectories (checkName_of_nameable (nameable_parentPath hpath)) hmake
    exact .failed error ((ChangesAt.lasting _).refl s)
  | ok made =>
    simp only
    generalize locate (parentPath path) = directory
    generalize lastComponent (tidyText path) = name
    have hfree := find?_freshPlace made directory name
    generalize made.freshPlace directory name made.entries.length = temporary at hfree ⊢
    have htemporary := ne_nil_of_find?_eq_none hfree
    have hmade : SameBut temporary made (made.put temporary (.file "" 0o600)) := .put htemporary made _
    by_cases hcreate : made.refuses .create temporary = true
    · simp only [hcreate]
      exact .failed _ (changesAt_makeDirectories hmake)
    · simp only [hcreate]
      rcases fillAndMove_cases htemporary (made.put temporary (.file "" 0o600)) (locate path) path text with
        ⟨e, hfails⟩ | ⟨hplace, hmoved⟩
      · -- the temporary file is taken away again
        rw [hfails]
        refine .failed e ((ChangesAt.lasting _).trans (changesAt_makeDirectories hmake) fun place _ text mode => ?_)
        rw [find?_remove_of_sameBut hmade hfree]
      · rw [hmoved]
        refine .done (by rw [find?_put _ _ _ _ hplace, if_pos rfl]) ?_
        refine (ChangesAt.lasting _).trans (changesAt_makeDirectories hmake) fun place hother text mode => ?_
        rw [find?_put _ _ _ _ hplace, if_neg hother, find?_remove_of_sameBut (hmade.trans (sameBut_filled htemporary)) hfree]

end Store

namespace Generator

variable {g : Generator} {directory : String}

theorem nameable_file (hdirectory : Nameable directory) (hname : Nameable g.fileName) : Nameable (g.file directory) :=
  nameable_tidyText (nameable_joinText hdirectory hname)

/-- How the generation of a build file ends in a session, where only its files can change. -/
inductive Generates (g : Generator) (directory : String) (s : Session) : EStateM.Result Failure Session String → Prop
  /-- The text cannot be made, and nothing is touched. -/
  | notRendered {e : Failure} (hrender : g.render s.graph = .error e) : Generates g directory s (.error e s)
  | written {text : String} {t : Store} (hrender : g.render s.graph = .ok text)
      (hfile : t.find? (locate (g.file directory)) = some (.file text plainMode))
      (hothers : s.store.ChangesAt (· = locate (g.file directory)) t) :
      Generates g directory s (.ok (g.file directory) { s with store := t })
  | notWritten {text : String} {t : Store} (e : FileError) (hrender : g.render s.graph = .ok text)
      (hsame : s.store.ChangesAt (fun _ => False) t) :
      Generates g directory s (.error (.of (.unwritable (g.file directory) e)) { s with store := t })

theorem generate_eq (g : Generator) (directory : String) (s : Session) :
    g.generate directory s =
      match g.render s.graph with
      | .error e => .error e s
      | .ok text =>
        match Store.replaceFile (g.file directory) text s.store with
        | (.ok (), t) => .ok (g.file directory) { s with store := t }
        | (.error e, t) => .error e { s with store := t } := by
  change (match g.render s.graph with
    | .error e => throw e
    | .ok text => do
      Session.onStore (Store.replaceFile (g.file directory) text)
      return g.file directory : SessionM String) s = _
  cases g.render s.graph with
  | error e => rfl
  | ok text =>
    change EStateM.bind (Session.onStore (Store.replaceFile (g.file directory) text)) _ s = _
    rw [EStateM.bind, Session.onStore_eq]
    simp only
    generalize Store.replaceFile (g.file directory) text s.store = result
    rcases result with ⟨_ | _, t⟩ <;> rfl

theorem generates (hdirectory : Nameable directory) (hname : Nameable g.fileName) (s : Session) :
    g.Generates directory s (g.generate directory s) := by
  rw [generate_eq]
  cases hrender : g.render s.graph with
  | error e => exact .notRendered hrender
  | ok text =>
    have hreplaces := s.store.replaceFile_replaces (nameable_file hdirectory hname) text
    simp only
    generalize Store.replaceFile (g.file directory) text s.store = result at hreplaces ⊢
    cases hreplaces with
    | done hfile hothers => exact .written hrender hfile hothers
    | failed e hsame => exact .notWritten e hrender hsame

end Generator

/-- **Files are replaced as a whole or not at all.** Afterwards the file at the path has the text and the plain mode and
all others are as they were, or an error has been raised and all files are as they were, whatever the file system
refuses. A generator of build files touches no file but the one that it is to make, that one only with its whole text,
and nothing if it has no text for it; the Ninja file is made by a generator. -/
theorem replaceFile_allOrNothing :
    (∀ (s : Store) (path text : String), Nameable path → s.Replaces path text (Store.replaceFile path text s)) ∧
      (∀ (g : Generator) (directory : String), Nameable directory → Nameable g.fileName →
        ∀ s : Session, g.Generates directory s (g.generate directory s)) ∧
      ∀ directory fileName : String,
        Session.writeBuildFile directory fileName =
          (fun file => .texts ["ninja", "NinjaGenerator(filename=" ++ Text.quoted fileName ++ ")", file]) <$>
            (Generator.ninja fileName).generate directory := by
  refine ⟨fun s path text hpath => s.replaceFile_replaces hpath text, ?_, Session.writeBuildFile_eq⟩
  intro g directory hdirectory hname s
  exact g.generates hdirectory hname s

/-- A store with an old build file, which the file system may keep from being replaced. -/
def Store.withOldFile (kept : Bool) : Store where
  entries := [(["out"], .directory), (["out", "build.ninja"], .file "old" 0o640)]
  refuses access place := kept && access == .rename && place == ["out", "build.ninja"]

theorem replaceFile_allOrNothing_sample :
    Nameable "/out/build.ninja" ∧
      (Store.withOldFile false).Replaces "/out/build.ninja" "new"
        (Store.replaceFile "/out/build.ninja" "new" (Store.withOldFile false)) ∧
      (Store.replaceFile "/out/build.ninja" "new" (Store.withOldFile false)).2.files =
        [("/out/build.ninja", "new", plainMode)] ∧
      (Store.replaceFile "/out/build.ninja" "new" (Store.withOldFile true)).2.files =
        [("/out/build.ninja", "old", 0o640)] ∧
      ∃ s : Session, s.store = Store.withOldFile true ∧
        (Generator.ninja "build.ninja").Generates "/out" s ((Generator.ninja "build.ninja").generate "/out" s) :=
  ⟨by decide, replaceFile_allOrNothing.1 (Store.withOldFile false) "/out/build.ninja" "new" (by decide),
    by decide +kernel, by decide +kernel,
    { store := Store.withOldFile true, graph := .empty { sourceDir := "/src", buildRoot := "/out" } }, rfl,
    replaceFile_allOrNothing.2.1 (Generator.ninja "build.ninja") "/out" (by decide) (by decide) _⟩

end BuildPlan
