import BuildPlan.Proofs.Graph.Records

/-!
# Edges in order

`Graph.sortedEdges` puts the edges in the order of their first outputs. In a well-formed graph this order is strict,
so it depends on nothing but which statements there are: graphs with the same statements have the same ones in the
same order (`sortedStatements_eq`), whatever the order in which these came.
-/

namespace BuildPlan

/-- The absolute path of the first output. -/
def Statement.sortKey (s : Statement) : String := (s.outs.head?.map Path.absolute).getD ""

namespace Graph

variable {g g' : Graph}

/-- The statements of the edges, in the order of their first outputs. -/
def sortedStatements (g : Graph) : List Statement := g.sortedEdges.map Edge.toStatement

theorem mem_sortedEdges {e : Edge} : e ∈ g.sortedEdges ↔ e ∈ g.edges := Text.mem_sortOn

theorem sortedStatements_perm (g : Graph) : g.sortedStatements.Perm g.statements :=
  (Text.sortOn_perm Edge.sortKey g.edges).map _

namespace WellFormed

theorem exists_sortKey (h : g.WellFormed) {e : Edge} (he : e ∈ g.edges) :
    ∃ out ∈ e.outs, out.absolute = e.sortKey := by
  have hmakes := h.makes e he
  unfold Edge.sortKey
  cases houts : e.outs with
  | nil => exact absurd houts hmakes
  | cons out rest => exact ⟨out, List.mem_cons_self, rfl⟩

theorem eq_of_sortKey (h : g.WellFormed) {a b : Edge} (ha : a ∈ g.edges) (hb : b ∈ g.edges)
    (heq : a.sortKey = b.sortKey) : a = b := by
  obtain ⟨out, hout, hkey⟩ := h.exists_sortKey ha
  obtain ⟨out', hout', hkey'⟩ := h.exists_sortKey hb
  have hfor := h.edgeFor?_eq_some ha hout
  rw [hkey, heq, ← hkey', h.edgeFor?_eq_some hb hout'] at hfor
  exact (Option.some.inj hfor).symm

theorem nodup_sortedStatements (h : g.WellFormed) : g.sortedStatements.Nodup :=
  (sortedStatements_perm g).nodup_iff.mpr h.nodup_statements

/-- No two edges have the same first output, so their order is strict. -/
theorem pairwise_sortedEdges (h : g.WellFormed) : g.sortedEdges.Pairwise fun a b => a.sortKey < b.sortKey := by
  have hsorted : g.sortedEdges.Pairwise fun a b => a.sortKey ≤ b.sortKey := Text.pairwise_sortOn Edge.sortKey _
  have hnodup : g.sortedEdges.Pairwise fun a b => a.toStatement ≠ b.toStatement :=
    List.pairwise_map.mp h.nodup_sortedStatements
  refine (hsorted.and hnodup).imp_of_mem fun {a b} ha hb ⟨hle, hne⟩ => ?_
  refine String.not_le.mp fun hge => hne ?_
  rw [h.eq_of_sortKey (mem_sortedEdges.mp ha) (mem_sortedEdges.mp hb) (String.le_antisymm hle hge)]

end WellFormed

theorem sortedStatements_eq (h : g.WellFormed) (h' : g'.WellFormed)
    (hmem : ∀ s, s ∈ g.statements ↔ s ∈ g'.statements) : g.sortedStatements = g'.sortedStatements := by
  have hstrict : ∀ g : Graph, g.WellFormed → g.sortedStatements.Pairwise fun s t => s.sortKey < t.sortKey :=
    fun g hg => List.pairwise_map.mpr hg.pairwise_sortedEdges
  have hperm : g.sortedStatements.Perm g'.sortedStatements := by
    rw [List.perm_ext_iff_of_nodup h.nodup_sortedStatements h'.nodup_sortedStatements]
    intro s
    rw [(sortedStatements_perm g).mem_iff, (sortedStatements_perm g').mem_iff]
    exact hmem s
  refine hperm.eq_of_pairwise (fun s t _ _ hst hts => ?_) (hstrict g h) (hstrict g' h')
  exact absurd (String.lt_trans hst hts) (String.lt_irrefl _)

end Graph

end BuildPlan
