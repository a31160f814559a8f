import BuildPlan.Target.Entity
import Mathlib.Data.Finset.Card
import Mathlib.Data.Finset.Range
import Mathlib.Data.List.Nodup

/-!
# The order of libraries

`Visits` says what a depth-first search does without a bound on its depth. Such a search comes to an end on every graph
that has dependencies at finitely many places only, since each visit that goes deeper leaves one place fewer to be seen,
and `closure` computes what it comes to. What it has found is exactly what the roots reach, each once, and each before
what it depends on directly, unless the two form a cycle: `Entities.libraryClosure_topological`.
-/

namespace BuildPlan

variable {ι : Type} {deps : ι → List ι} {a b c : ι}

/-! ### Reaching -/

theorem Reaches.of_mem (h : b ∈ deps a) : Reaches deps a b := .step h (.refl b)

theorem Reaches.trans (hab : Reaches deps a b) (hbc : Reaches deps b c) : Reaches deps a c := by
  induction hab with
  | refl _ => exact hbc
  | step hdep _ ih => exact .step hdep (ih hbc)

theorem Reaches.mem_of_closed {found : List ι} (hclosed : ∀ x ∈ found, ∀ y ∈ deps x, y ∈ found)
    (h : Reaches deps a b) (ha : a ∈ found) : b ∈ found := by
  induction h with
  | refl _ => exact ha
  | step hdep _ ih => exact ih (hclosed _ ha _ hdep)

/-! ### Searching without a bound -/

/-- Some libraries are visited one after another, and the search comes to an end. -/
inductive Visits (deps : ι → List ι) : Visit ι → List ι → Visit ι → Prop
  | done (v : Visit ι) : Visits deps v [] v
  | skip {v : Visit ι} {a : ι} {rest : List ι} {v' : Visit ι} (hseen : a ∈ v.seen) (hrest : Visits deps v rest v') :
      Visits deps v (a :: rest) v'
  | enter {v : Visit ι} {a : ι} {u : Visit ι} {rest : List ι} {v' : Visit ι} (hnew : a ∉ v.seen)
      (hdeps : Visits deps { v with seen := a :: v.seen } (deps a) u)
      (hrest : Visits deps { u with order := a :: u.order } rest v') : Visits deps v (a :: rest) v'

/-- What visiting some roots has found, in the order in which it was finished, last first. -/
structure Finds (deps : ι → List ι) (v : Visit ι) (roots found : List ι) (v' : Visit ι) : Prop where
  order : v'.order = found ++ v.order
  seen : ∀ x, x ∈ v'.seen ↔ x ∈ found ∨ x ∈ v.seen
  nodup : found.Nodup
  fresh : ∀ x ∈ found, x ∉ v.seen
  visited : ∀ a ∈ roots, a ∈ v'.seen
  reached : ∀ x ∈ found, ∃ a ∈ roots, Reaches deps a x
  closed : ∀ x ∈ found, ∀ y ∈ deps x, y ∈ v'.seen

namespace Finds

variable {v u v' : Visit ι} {rest found later : List ι}

theorem done (v : Visit ι) : Finds deps v [] [] v :=
  ⟨rfl, by simp, .nil, nofun, nofun, nofun, nofun⟩

theorem skip (hseen : a ∈ v.seen) (h : Finds deps v rest found v') : Finds deps v (a :: rest) found v' where
  order := h.order
  seen := h.seen
  nodup := h.nodup
  fresh := h.fresh
  visited := List.forall_mem_cons.mpr ⟨(h.seen a).mpr (.inr hseen), h.visited⟩
  reached x hx := by
    obtain ⟨root, hroot, hreach⟩ := h.reached x hx
    exact ⟨root, List.mem_cons_of_mem _ hroot, hreach⟩
  closed := h.closed

theorem enter (hnew : a ∉ v.seen) (h : Finds deps { v with seen := a :: v.seen } (deps a) found u)
    (h' : Finds deps { u with order := a :: u.order } rest later v') :
    Finds deps v (a :: rest) (later ++ a :: found) v' := by
  have hseen : ∀ x, x ∈ u.seen ↔ x ∈ found ∨ x = a ∨ x ∈ v.seen := fun x =>
    (h.seen x).trans (or_congr_right List.mem_cons)
  have hlater : ∀ x ∈ later, x ∉ found ∧ x ≠ a ∧ x ∉ v.seen := fun x hx => by
    have := h'.fresh x hx
    simpa only [hseen, not_or] using this
  have hfound : ∀ x ∈ found, x ≠ a ∧ x ∉ v.seen := fun x hx => by
    have := h.fresh x hx
    simpa only [List.mem_cons, not_or] using this
  refine ⟨?_, fun x => ?_, ?_, ?_, ?_, ?_, ?_⟩
  · rw [h'.order, h.order, List.append_assoc, List.cons_append]
  · rw [h'.seen, hseen, List.mem_append, List.mem_cons]
    tauto
  · refine h'.nodup.append (List.nodup_cons.mpr ⟨fun ha => (hfound a ha).1 rfl, h.nodup⟩) fun x hx hold => ?_
    rcases List.mem_cons.mp hold with rfl | hold
    · exact (hlater x hx).2.1 rfl
    · exact (hlater x hx).1 hold
  · refine List.forall_mem_append.mpr ⟨fun x hx => (hlater x hx).2.2, List.forall_mem_cons.mpr ⟨hnew, fun x hx => ?_⟩⟩
    exact (hfound x hx).2
  · refine List.forall_mem_cons.mpr ⟨(h'.seen a).mpr (.inr ((hseen a).mpr (.inr (.inl rfl)))), h'.visited⟩
  · refine List.forall_mem_append.mpr ⟨fun x hx => ?_, List.forall_mem_cons.mpr ⟨?_, fun x hx => ?_⟩⟩
    · obtain ⟨root, hroot, hreach⟩ := h'.reached x hx
      exact ⟨root, List.mem_cons_of_mem _ hroot, hreach⟩
    · exact ⟨a, List.mem_cons_self, .refl a⟩
    · obtain ⟨dep, hdep, hreach⟩ := h.reached x hx
      exact ⟨a, List.mem_cons_self, .step hdep hreach⟩
  · have hkept : ∀ x ∈ u.seen, x ∈ v'.seen := fun x hx => (h'.seen x).mpr (.inr hx)
    refine List.forall_mem_append.mpr ⟨h'.closed, List.forall_mem_cons.mpr ⟨fun y hy => ?_, fun x hx y hy => ?_⟩⟩
    · exact hkept y (h.visited y hy)
    · exact hkept y (h.closed x hx y hy)

end Finds

theorem Visits.exists_finds {v v' : Visit ι} {roots : List ι} (h : Visits deps v roots v') :
    ∃ found, Finds deps v roots found v' := by
  induction h with
  | done v => exact ⟨[], .done v⟩
  | skip hseen _ ih =>
    obtain ⟨found, hfound⟩ := ih
    exact ⟨found, hfound.skip hseen⟩
  | enter hnew _ _ ihdeps ihrest =>
    obtain ⟨found, hfound⟩ := ihdeps
    obtain ⟨later, hlater⟩ := ihrest
    exact ⟨_, hfound.enter hnew hlater⟩

/-! ### Dependencies come later -/

/-- Behind each library come those that it depends on, but for those that it forms a cycle with. -/
def DependenciesFollow (deps : ι → List ι) : List ι → Prop
  | [] => True
  | a :: rest => (∀ b ∈ deps a, b ∈ rest ∨ Reaches deps b a) ∧ DependenciesFollow deps rest

/-- A library is put in front when all that it depends on is finished, or is being visited still. What is being visited
reaches all that is visited next. -/
theorem Visits.dependenciesFollow {v v' : Visit ι} {roots : List ι} (h : Visits deps v roots v')
    (horder : DependenciesFollow deps v.order)
    (hopen : ∀ z ∈ v.seen, z ∈ v.order ∨ ∀ root ∈ roots, Reaches deps z root) : DependenciesFollow deps v'.order := by
  induction h with
  | done v => exact horder
  | skip _ _ ih => exact ih horder fun z hz => (hopen z hz).imp_right (List.forall_mem_cons.mp · |>.2)
  | @enter v a u rest v' hnew hdeps _ ihdeps ihrest =>
    obtain ⟨found, hfound⟩ := hdeps.exists_finds
    -- what has been seen is finished by now, is the library itself, or is being visited
    have hcases : ∀ z ∈ u.seen, z ∈ u.order ∨ z = a ∨ ∀ root ∈ a :: rest, Reaches deps z root := by
      intro z hz
      rw [hfound.order]
      rcases (hfound.seen z).mp hz with hz | hz
      · exact .inl (List.mem_append_left _ hz)
      · rcases List.mem_cons.mp hz with rfl | hz
        · exact .inr (.inl rfl)
        · exact (hopen z hz).imp (List.mem_append_right _ ·) .inr
    refine ihrest ⟨fun b hb => ?_, ihdeps horder fun z hz => ?_⟩ fun z hz => ?_
    · rcases hcases b (hfound.visited b hb) with hb | rfl | hb
      · exact .inl hb
      · exact .inr (.refl b)
      · exact .inr (hb a List.mem_cons_self)
    · rcases List.mem_cons.mp hz with rfl | hz
      · exact .inr fun dep hdep => .of_mem hdep
      · exact (hopen z hz).imp_right fun hreach dep hdep => (hreach a List.mem_cons_self).trans (.of_mem hdep)
    · rcases hcases z hz with hz | rfl | hz
      · exact .inl (List.mem_cons_of_mem _ hz)
      · exact .inl List.mem_cons_self
      · exact .inr (List.forall_mem_cons.mp hz).2

namespace DependenciesFollow

variable {xs : List ι}

theorem sublist_of_mem (h : DependenciesFollow deps xs) (ha : a ∈ xs) (hb : b ∈ deps a) (hcycle : ¬Reaches deps b a) :
    [a, b].Sublist xs := by
  induction xs with
  | nil => cases ha
  | cons x rest ih =>
    rcases List.mem_cons.mp ha with rfl | ha
    · exact (List.singleton_sublist.mpr ((h.1 b hb).resolve_right hcycle)).cons_cons a
    · exact (ih h.2 ha).cons x

section acyclic

variable (hacyclic : ∀ a ∈ xs, ∀ b ∈ deps a, ¬Reaches deps b a)
include hacyclic

theorem closed (h : DependenciesFollow deps xs) : ∀ x, x ∈ xs → ∀ y ∈ deps x, y ∈ xs := by
  induction xs with
  | nil => exact nofun
  | cons x rest ih =>
    obtain ⟨hx, hrest⟩ := List.forall_mem_cons.mp hacyclic
    refine List.forall_mem_cons.mpr ⟨fun y hy => ?_, fun z hz y hy => ?_⟩
    · exact List.mem_cons_of_mem _ ((h.1 y hy).resolve_right (hx y hy))
    · exact List.mem_cons_of_mem _ (ih hrest h.2 z hz y hy)

/-- Without cycles, all that a library reaches comes behind it. -/
theorem sublist_of_reaches (h : DependenciesFollow deps xs) (ha : a ∈ xs) (hreach : Reaches deps a b) (hne : a ≠ b) :
    [a, b].Sublist xs := by
  induction xs with
  | nil => cases ha
  | cons x rest ih =>
    obtain ⟨hx, hrest⟩ := List.forall_mem_cons.mp hacyclic
    rcases List.mem_cons.mp ha with rfl | ha
    · cases hreach with
      | refl => exact absurd rfl hne
      | step hdep hreach =>
        have hmem := (h.1 _ hdep).resolve_right (hx _ hdep)
        exact (List.singleton_sublist.mpr (hreach.mem_of_closed (h.2.closed hrest) hmem)).cons_cons a
    · exact (ih hrest h.2 ha).cons x

end acyclic

end DependenciesFollow

/-! ### The bound suffices -/

section bound

variable [DecidableEq ι] {places : Finset ι} (hplaces : ∀ a, deps a ≠ [] → a ∈ places)
include hplaces

/-- A search that may go deeper than there are places left comes to its end. -/
theorem visits_foldl_visit (fuel : Nat) (roots : List ι) (v : Visit ι)
    (hfuel : (places.filter (· ∉ v.seen)).card < fuel) : Visits deps v roots (roots.foldl (visit deps fuel) v) := by
  induction fuel generalizing roots v with
  | zero => exact absurd hfuel (Nat.not_lt_zero _)
  | succ fuel ihfuel =>
    induction roots generalizing v with
    | nil => exact .done v
    | cons a rest ihrest =>
      rw [List.foldl_cons, visit]
      split
      case isTrue hseen => exact .skip hseen (ihrest v hfuel)
      case isFalse hnew =>
        have hdeps : Visits deps { v with seen := a :: v.seen } (deps a)
            ((deps a).foldl (visit deps fuel) { v with seen := a :: v.seen }) := by
          by_cases hleaf : deps a = []
          · rw [hleaf]
            exact .done _
          · refine ihfuel (deps a) _ (Nat.lt_of_lt_of_le (Finset.card_lt_card ?_) (Nat.le_of_lt_succ hfuel))
            refine Finset.ssubset_iff_of_subset (Finset.monotone_filter_right _ ?_) |>.mpr ⟨a, ?_, ?_⟩
            · intro x _ hx hold
              exact hx (List.mem_cons_of_mem _ hold)
            · exact Finset.mem_filter.mpr ⟨hplaces a hleaf, hnew⟩
            · simp
        obtain ⟨found, hfound⟩ := hdeps.exists_finds
        refine .enter hnew hdeps (ihrest _ (Nat.lt_of_le_of_lt (Finset.card_le_card ?_) hfuel))
        refine Finset.monotone_filter_right _ ?_
        intro x _ hx hold
        exact hx ((hfound.seen x).mpr (.inr (List.mem_cons_of_mem _ hold)))

variable {size : Nat} (hsize : places.card ≤ size) (roots : List ι)
include hsize

theorem exists_visits_closure : ∃ v, Visits deps {} roots v ∧ closure deps size roots = v.order := by
  refine ⟨_, visits_foldl_visit hplaces (size + 1) roots {} ?_, rfl⟩
  exact Nat.lt_succ_of_le ((Finset.card_filter_le _ _).trans hsize)

/-- What a closure has is what a search from nothing finds. -/
theorem exists_finds_closure : ∃ v, Finds deps {} roots (closure deps size roots) v := by
  obtain ⟨v, hvisits, horder⟩ := exists_visits_closure hplaces hsize roots
  obtain ⟨found, hfound⟩ := hvisits.exists_finds
  have heq : closure deps size roots = found := by rw [horder, hfound.order, List.append_nil]
  exact ⟨v, heq ▸ hfound⟩

theorem nodup_closure : (closure deps size roots).Nodup := by
  obtain ⟨v, hfound⟩ := exists_finds_closure hplaces hsize roots
  exact hfound.nodup

theorem mem_closure_iff : a ∈ closure deps size roots ↔ ∃ root ∈ roots, Reaches deps root a := by
  obtain ⟨v, hfound⟩ := exists_finds_closure hplaces hsize roots
  have hseen : ∀ x, x ∈ v.seen ↔ x ∈ closure deps size roots := fun x =>
    (hfound.seen x).trans (or_iff_left List.not_mem_nil)
  constructor
  · exact hfound.reached a
  · rintro ⟨root, hroot, hreach⟩
    refine hreach.mem_of_closed (fun x hx y hy => ?_) ?_
    · exact (hseen y).mp (hfound.closed x hx y hy)
    · exact (hseen root).mp (hfound.visited root hroot)

theorem dependenciesFollow_closure : DependenciesFollow deps (closure deps size roots) := by
  obtain ⟨v, hvisits, horder⟩ := exists_visits_closure hplaces hsize roots
  rw [horder]
  exact hvisits.dependenciesFollow trivial nofun

end bound

/-! ### Libraries -/

namespace Entities

variable (entities : Entities) (roots : List Nat)

theorem libraryDeps_of_library? {entities : Entities} {id : Nat} {l : Library} (h : entities.library? id = some l) :
    entities.libraryDeps id = l.deps := by
  rw [libraryDeps, h]
  rfl

theorem exists_library_of_mem_libraryDeps {entities : Entities} {id dep : Nat} (h : dep ∈ entities.libraryDeps id) :
    ∃ l, entities.library? id = some l ∧ dep ∈ l.deps := by
  rw [libraryDeps] at h
  cases hl : entities.library? id with
  | none =>
    rw [hl] at h
    cases h
  | some l =>
    rw [hl] at h
    exact ⟨l, rfl, h⟩

theorem mem_range_of_libraryDeps (id : Nat) (h : entities.libraryDeps id ≠ []) :
    id ∈ Finset.range entities.length := by
  rw [Finset.mem_range]
  refine Nat.lt_of_not_le fun hge => h ?_
  rw [libraryDeps, library?, List.getElem?_eq_none hge]
  rfl

theorem card_range_length : (Finset.range entities.length).card ≤ entities.length :=
  (Finset.card_range _).le

theorem mem_libraryClosure_iff {id : Nat} {l : Library} :
    (id, l) ∈ entities.libraryClosure roots ↔
      entities.library? id = some l ∧ ∃ root ∈ roots, Reaches entities.libraryDeps root id := by
  rw [libraryClosure, List.mem_filterMap]
  constructor
  · rintro ⟨other, hother, hmap⟩
    obtain ⟨found, hfound, heq⟩ := Option.map_eq_some_iff.mp hmap
    cases heq
    exact ⟨hfound, (mem_closure_iff entities.mem_range_of_libraryDeps entities.card_range_length roots).mp hother⟩
  · rintro ⟨hfound, hreach⟩
    refine ⟨id, ?_, by rw [hfound]; rfl⟩
    exact (mem_closure_iff entities.mem_range_of_libraryDeps entities.card_range_length roots).mpr hreach

theorem nodup_keys_libraryClosure : ((entities.libraryClosure roots).map (·.1)).Nodup := by
  have hnodup := nodup_closure entities.mem_range_of_libraryDeps entities.card_range_length roots
  refine List.pairwise_map.mpr (List.pairwise_filterMap.mpr (hnodup.imp fun hne found hfound other hother => ?_))
  obtain ⟨_, -, rfl⟩ := Option.map_eq_some_iff.mp hfound
  obtain ⟨_, -, rfl⟩ := Option.map_eq_some_iff.mp hother
  exact hne

variable {entities roots} {a b : Nat × Library}

theorem sublist_libraryClosure (ha : entities.library? a.1 = some a.2) (hb : entities.library? b.1 = some b.2)
    (h : [a.1, b.1].Sublist (closure entities.libraryDeps entities.length roots)) :
    [a, b].Sublist (entities.libraryClosure roots) := by
  have hpair := h.filterMap fun id => (entities.library? id).map (id, ·)
  rw [libraryClosure]
  simpa [ha, hb] using hpair

/-- **The libraries that some roots need are exactly those that the roots reach, each once, and each before those that
it depends on.** The search for them comes to an end, whatever the dependencies are. A library stands before one that it
depends on directly unless the two form a cycle, and if none of them is on a cycle, each stands before all that it
reaches. -/
theorem libraryClosure_topological (entities : Entities) (roots : List Nat) :
    (∃ v, Visits entities.libraryDeps {} roots v ∧
      entities.libraryClosure roots = v.order.filterMap fun id => (entities.library? id).map (id, ·)) ∧
    ((entities.libraryClosure roots).map (·.1)).Nodup ∧
    (∀ id l, (id, l) ∈ entities.libraryClosure roots ↔
      entities.library? id = some l ∧ ∃ root ∈ roots, Reaches entities.libraryDeps root id) ∧
    (∀ a ∈ entities.libraryClosure roots, ∀ b ∈ entities.libraryClosure roots, b.1 ∈ a.2.deps →
      ¬Reaches entities.libraryDeps b.1 a.1 → [a, b].Sublist (entities.libraryClosure roots)) ∧
    ((∀ a ∈ entities.libraryClosure roots, ∀ dep ∈ a.2.deps, ¬Reaches entities.libraryDeps dep a.1) →
      ∀ a ∈ entities.libraryClosure roots, ∀ b ∈ entities.libraryClosure roots,
        Reaches entities.libraryDeps a.1 b.1 → a.1 ≠ b.1 → [a, b].Sublist (entities.libraryClosure roots)) := by
  have hfollow := dependenciesFollow_closure entities.mem_range_of_libraryDeps entities.card_range_length roots
  have hclosure : ∀ id, id ∈ closure entities.libraryDeps entities.length roots ↔
      ∃ root ∈ roots, Reaches entities.libraryDeps root id := fun id =>
    mem_closure_iff entities.mem_range_of_libraryDeps entities.card_range_length roots
  have hmem : ∀ a ∈ entities.libraryClosure roots, entities.library? a.1 = some a.2 ∧
      a.1 ∈ closure entities.libraryDeps entities.length roots := fun a ha =>
    ((entities.mem_libraryClosure_iff roots).mp ha).imp_right (hclosure a.1).mpr
  refine ⟨?_, entities.nodup_keys_libraryClosure roots, fun id l => entities.mem_libraryClosure_iff roots, ?_, ?_⟩
  · obtain ⟨v, hvisits, horder⟩ :=
      exists_visits_closure entities.mem_range_of_libraryDeps entities.card_range_length roots
    exact ⟨v, hvisits, by rw [libraryClosure, horder]⟩
  · intro a ha b hb hdep hcycle
    obtain ⟨hlibrary, hplace⟩ := hmem a ha
    rw [← libraryDeps_of_library? hlibrary] at hdep
    exact sublist_libraryClosure hlibrary (hmem b hb).1 (hfollow.sublist_of_mem hplace hdep hcycle)
  · intro hacyclic a ha b hb hreach hne
    obtain ⟨hlibrary, hplace⟩ := hmem a ha
    refine sublist_libraryClosure hlibrary (hmem b hb).1 (hfollow.sublist_of_reaches ?_ hplace hreach hne)
    intro id hid dep hdep
    -- what has dependencies is a library
    obtain ⟨l, hl, hdeps⟩ := exists_library_of_mem_libraryDeps hdep
    exact hacyclic (id, l) ((entities.mem_libraryClosure_iff roots).mpr ⟨hl, (hclosure id).mp hid⟩) dep hdeps

/-- Two libraries that both need a third one, below one that needs them. -/
def diamond : Entities :=
  [.library { name := "top", deps := [1, 2] }, .library { name := "left", deps := [3] },
    .library { name := "right", deps := [3] }, .library { name := "base" }]

theorem libraryClosure_topological_sample :
    (∀ a ∈ diamond.libraryClosure [3, 0, 0], ∀ dep ∈ a.2.deps, ¬Reaches diamond.libraryDeps dep a.1) ∧
      [(0, { name := "top", deps := [1, 2] }), (3, { name := "base" })].Sublist (diamond.libraryClosure [3, 0, 0]) := by
  have hlt : ∀ id, ∀ dep ∈ diamond.libraryDeps id, id < dep := by
    intro id
    match id with
    | 0 | 1 | 2 | 3 => decide
    | n + 4 => exact nofun
  have hle : ∀ {a b}, Reaches diamond.libraryDeps a b → a ≤ b := by
    intro a b hreach
    induction hreach with
    | refl _ => exact Nat.le_refl _
    | step hdep _ ih => exact Nat.le_of_lt (Nat.lt_of_lt_of_le (hlt _ _ hdep) ih)
  have hacyclic : ∀ a ∈ diamond.libraryClosure [3, 0, 0], ∀ dep ∈ a.2.deps,
      ¬Reaches diamond.libraryDeps dep a.1 := by
    intro a ha dep hdep hreach
    rw [← libraryDeps_of_library? ((diamond.mem_libraryClosure_iff [3, 0, 0]).mp ha).1] at hdep
    exact Nat.not_lt.mpr (hle hreach) (hlt a.1 dep hdep)
  refine ⟨hacyclic, (libraryClosure_topological diamond [3, 0, 0]).2.2.2.2 hacyclic _ (by decide) _ (by decide) ?_ ?_⟩
  · exact .step (b := 1) (by decide) (.of_mem (by decide))
  · decide

end Entities

end BuildPlan
