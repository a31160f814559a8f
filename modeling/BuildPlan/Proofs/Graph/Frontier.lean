import BuildPlan.Graph.Basic

/-!
# Members of the frontier

The frontier of a target holds the outputs of its statements that neither the last statement to make them uses nor any
one after that. The frontier is kept up from one statement to the next; `mem_foldl_iff` says what comes of that.
-/

namespace BuildPlan.Graph

theorem mem_addPath {frontier : List Path} {path new : Path} :
    path ∈ addPath frontier new ↔ path ∈ frontier ∨ path = new := by
  unfold addPath
  split
  case isTrue h =>
    constructor
    · exact .inl
    · rintro (hpath | rfl)
      · exact hpath
      · exact h
  case isFalse => simp

theorem mem_foldl_addPath {outs frontier : List Path} {path : Path} :
    path ∈ outs.foldl addPath frontier ↔ path ∈ frontier ∨ path ∈ outs := by
  induction outs generalizing frontier with
  | nil => simp
  | cons out rest ih => rw [List.foldl_cons, ih, mem_addPath, List.mem_cons, or_assoc]

theorem mem_updateFrontier {frontier : List Path} {s : Statement} {path : Path} :
    path ∈ updateFrontier frontier s ↔ (path ∈ frontier ∨ path ∈ s.outs) ∧ path ∉ s.uses := by
  rw [updateFrontier, List.mem_filter, mem_foldl_addPath, decide_eq_true_eq]

/-- A path stays in the frontier as long as nothing uses it, and comes in with the statements that make it. -/
theorem mem_foldl_iff {statements : List Statement} {frontier : List Path} {path : Path} :
    path ∈ statements.foldl updateFrontier frontier ↔
      path ∈ frontier ∧ (∀ s ∈ statements, path ∉ s.uses) ∨
      ∃ before s after, statements = before ++ s :: after ∧ path ∈ s.outs ∧ ∀ t ∈ s :: after, path ∉ t.uses := by
  induction statements generalizing frontier with
  | nil => simp
  | cons s rest ih =>
    rw [List.foldl_cons, ih, mem_updateFrontier]
    constructor
    · rintro (⟨⟨hmem, hs⟩, hrest⟩ | ⟨before, t, after, rfl, hout, hlater⟩)
      · have hall : ∀ t ∈ s :: rest, path ∉ t.uses := List.forall_mem_cons.mpr ⟨hs, hrest⟩
        rcases hmem with hmem | hout
        · exact .inl ⟨hmem, hall⟩
        · exact .inr ⟨[], s, rest, rfl, hout, hall⟩
      · exact .inr ⟨s :: before, t, after, rfl, hout, hlater⟩
    · rintro (⟨hmem, hall⟩ | ⟨before, t, after, hsplit, hout, hlater⟩)
      · obtain ⟨hs, hrest⟩ := List.forall_mem_cons.mp hall
        exact .inl ⟨⟨.inl hmem, hs⟩, hrest⟩
      · cases before with
        | nil =>
          obtain ⟨rfl, rfl⟩ := List.cons.inj hsplit
          obtain ⟨hs, hrest⟩ := List.forall_mem_cons.mp hlater
          exact .inl ⟨⟨.inr hout, hs⟩, hrest⟩
        | cons first before =>
          obtain ⟨rfl, hrest⟩ := List.cons.inj hsplit
          exact .inr ⟨before, t, after, hrest, hout, hlater⟩

theorem mem_frontier_iff {g : Graph} {path : Path} :
    path ∈ g.frontier ↔
      ∃ before s after, g.asked = before ++ s :: after ∧ path ∈ s.outs ∧ ∀ t ∈ s :: after, path ∉ t.uses := by
  simp [frontier, mem_foldl_iff]

theorem exists_of_mem_frontier {g : Graph} {path : Path} (h : path ∈ g.frontier) :
    ∃ s ∈ g.asked, path ∈ s.outs := by
  obtain ⟨before, s, after, hasked, hout, -⟩ := mem_frontier_iff.mp h
  exact ⟨s, by rw [hasked]; exact List.mem_append_right _ List.mem_cons_self, hout⟩

theorem mem_frontier_of_last {g : Graph} {statements : List Statement} {s : Statement} {path : Path}
    (h : g.asked = statements ++ [s]) (hout : path ∈ s.outs) : path ∈ g.frontier ∨ path ∈ s.uses := by
  by_cases huses : path ∈ s.uses
  · exact .inr huses
  · exact .inl (mem_frontier_iff.mpr ⟨statements, s, [], h, hout, by simpa using huses⟩)

/-! ### The frontier as a list -/

theorem nodup_addPath {frontier : List Path} (h : frontier.Nodup) (path : Path) : (addPath frontier path).Nodup := by
  unfold addPath
  split
  case isTrue => exact h
  case isFalse hnew =>
    refine List.nodup_append.mpr ⟨h, List.pairwise_singleton _ _, fun a ha b hb heq => hnew ?_⟩
    rwa [← List.mem_singleton.mp hb, ← heq]

theorem nodup_frontier (g : Graph) : g.frontier.Nodup := by
  have houts : ∀ (outs frontier : List Path), frontier.Nodup → (outs.foldl addPath frontier).Nodup := by
    intro outs
    induction outs with
    | nil => exact fun _ => id
    | cons out rest ih => exact fun frontier h => ih _ (nodup_addPath h out)
  have hall : ∀ (statements : List Statement) (frontier : List Path), frontier.Nodup →
      (statements.foldl updateFrontier frontier).Nodup := by
    intro statements
    induction statements with
    | nil => exact fun _ => id
    | cons s rest ih => exact fun frontier h => ih _ ((houts s.outs frontier h).filter _)
  exact hall g.asked [] .nil

theorem nodup_sortedFrontier (g : Graph) : g.sortedFrontier.Nodup :=
  (Text.sortOn_perm Path.absolute g.frontier).nodup_iff.mpr g.nodup_frontier

theorem mem_sortedFrontier {g : Graph} {path : Path} : path ∈ g.sortedFrontier ↔ path ∈ g.frontier := Text.mem_sortOn

theorem pairwise_sortedFrontier (g : Graph) : g.sortedFrontier.Pairwise fun a b => a.absolute ≤ b.absolute :=
  Text.pairwise_sortOn Path.absolute g.frontier

end BuildPlan.Graph
