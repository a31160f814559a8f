/-!
# Order of texts

Texts are ordered by code points. `sortOn` sorts a list by a text made of each element and keeps the order of
elements with equal texts; `sortTexts` sorts texts themselves. `isAtMost` is the order of lists of texts. All of
them sort by insertion, as `sortBy` does.
-/

namespace BuildPlan.Text

/-- A sorted list with one more element, in front of the first one that it may precede. -/
def insertBy {α : Type} (precedes : α → α → Bool) (x : α) : List α → List α
  | [] => [x]
  | y :: rest => if precedes x y then x :: y :: rest else y :: insertBy precedes x rest

/-- The list sorted, elements that may precede each other in their old order. -/
def sortBy {α : Type} (precedes : α → α → Bool) (xs : List α) : List α := xs.foldr (insertBy precedes) []

/-- The list sorted by `key`, elements with equal keys in their old order. -/
def sortOn {α : Type} (key : α → String) (xs : List α) : List α := sortBy (fun a b => decide (key a ≤ key b)) xs

/-- The texts in ascending order. -/
def sortTexts (xs : List String) : List String := sortOn id xs

/-- Lists of texts are ordered by the first place where they differ; a list comes before the longer ones that it
starts. -/
def isAtMost : List String → List String → Bool
  | [], _ => true
  | _ :: _, [] => false
  | a :: as, b :: bs => if a = b then isAtMost as bs else decide (a ≤ b)

theorem isAtMost_iff {a b : List String} : isAtMost a b ↔ ¬List.Lex (· < ·) b a := by
  induction a generalizing b with
  | nil => exact iff_of_true rfl nofun
  | cons x a ih =>
    cases b with
    | nil => exact iff_of_false nofun fun h => h .nil
    | cons y b =>
      rw [isAtMost, List.cons_lex_cons_iff]
      split
      case isTrue hxy =>
        subst hxy
        rw [ih]
        exact not_congr ⟨fun h => .inr ⟨rfl, h⟩, fun h => (h.resolve_left (String.lt_irrefl x)).2⟩
      case isFalse hxy =>
        rw [decide_eq_true_eq, ← String.not_lt]
        exact not_congr ⟨.inl, fun h => h.resolve_right fun heq => hxy heq.1.symm⟩

theorem insertBy_perm {α : Type} (precedes : α → α → Bool) (x : α) (xs : List α) :
    (insertBy precedes x xs).Perm (x :: xs) := by
  induction xs with
  | nil => exact .refl _
  | cons y rest ih =>
    rw [insertBy]
    split
    · exact .refl _
    · exact (ih.cons y).trans (.swap x y rest)

theorem sortBy_perm {α : Type} (precedes : α → α → Bool) (xs : List α) : (sortBy precedes xs).Perm xs := by
  induction xs with
  | nil => exact .refl _
  | cons x rest ih => exact (insertBy_perm precedes x _).trans (ih.cons x)

theorem sortOn_perm {α : Type} (key : α → String) (xs : List α) : (sortOn key xs).Perm xs := sortBy_perm _ xs

@[simp] theorem mem_sortOn {α : Type} {key : α → String} {xs : List α} {x : α} :
    x ∈ sortOn key xs ↔ x ∈ xs :=
  (sortOn_perm key xs).mem_iff

theorem pairwise_insertBy {α : Type} {precedes : α → α → Bool} (htotal : ∀ a b, precedes a b ∨ precedes b a)
    (htrans : ∀ a b c, precedes a b → precedes b c → precedes a c) (x : α) {xs : List α}
    (h : xs.Pairwise fun a b => precedes a b) : (insertBy precedes x xs).Pairwise fun a b => precedes a b := by
  induction xs with
  | nil => exact List.pairwise_singleton _ x
  | cons y rest ih =>
    obtain ⟨hy, hrest⟩ := List.pairwise_cons.mp h
    rw [insertBy]
    split
    case isTrue hxy =>
      refine List.pairwise_cons.mpr ⟨fun z hz => ?_, h⟩
      rcases List.mem_cons.mp hz with rfl | hz
      · exact hxy
      · exact htrans x y z hxy (hy z hz)
    case isFalse hxy =>
      refine List.pairwise_cons.mpr ⟨fun z hz => ?_, ih hrest⟩
      rcases List.mem_cons.mp ((insertBy_perm _ x rest).mem_iff.mp hz) with rfl | hz
      · exact (htotal z y).resolve_left hxy
      · exact hy z hz

theorem pairwise_sortBy {α : Type} {precedes : α → α → Bool} (htotal : ∀ a b, precedes a b ∨ precedes b a)
    (htrans : ∀ a b c, precedes a b → precedes b c → precedes a c) (xs : List α) :
    (sortBy precedes xs).Pairwise fun a b => precedes a b := by
  unfold sortBy
  induction xs with
  | nil => exact .nil
  | cons x rest ih => exact pairwise_insertBy htotal htrans x ih

theorem pairwise_sortOn {α : Type} (key : α → String) (xs : List α) :
    (sortOn key xs).Pairwise fun a b => key a ≤ key b := by
  refine (pairwise_sortBy (fun a b => ?_) (fun a b c hab hbc => ?_) xs).imp of_decide_eq_true
  · exact (String.le_total (key a) (key b)).imp decide_eq_true decide_eq_true
  · exact decide_eq_true (String.le_trans (of_decide_eq_true hab) (of_decide_eq_true hbc))

theorem sortOn_eq_self {α : Type} {key : α → String} {xs : List α} (h : xs.Pairwise fun a b => key a ≤ key b) :
    sortOn key xs = xs := by
  induction xs with
  | nil => rfl
  | cons x rest ih =>
    obtain ⟨hx, hrest⟩ := List.pairwise_cons.mp h
    show insertBy _ x (sortOn key rest) = x :: rest
    rw [ih hrest]
    cases rest with
    | nil => rfl
    | cons y rest => rw [insertBy, if_pos (decide_eq_true (hx y List.mem_cons_self))]

/-- Sorting gives the only list of the same texts that ascends. -/
theorem sortTexts_eq_of_perm {xs ys : List String} (hperm : xs.Perm ys) (hsorted : ys.Pairwise (· ≤ ·)) :
    sortTexts xs = ys :=
  ((sortOn_perm id xs).trans hperm).eq_of_pairwise (fun _ _ _ _ => String.le_antisymm) (pairwise_sortOn id xs) hsorted

theorem pairwise_lt_sortOn {α : Type} {key : α → String} {xs : List α} (h : (xs.map key).Nodup) :
    (sortOn key xs).Pairwise fun a b => key a < key b := by
  have hnodup : (sortOn key xs).Pairwise fun a b => key a ≠ key b :=
    List.pairwise_map.mp (((sortOn_perm key xs).map key).nodup_iff.mpr h)
  refine ((pairwise_sortOn key xs).and hnodup).imp fun hab => ?_
  exact String.not_le.mp fun hba => hab.2 (String.le_antisymm hab.1 hba)

theorem pairwise_lt_sortTexts {xs : List String} (h : xs.Nodup) : (sortTexts xs).Pairwise (· < ·) := by
  have hid : (xs.map id).Nodup := by rwa [List.map_id]
  exact pairwise_lt_sortOn hid

theorem sortTexts_eq_sortTexts {xs ys : List String} (hperm : xs.Perm ys) : sortTexts xs = sortTexts ys :=
  sortTexts_eq_of_perm (hperm.trans (sortOn_perm id ys).symm) (pairwise_sortOn id ys)

end BuildPlan.Text
