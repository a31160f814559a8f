import BuildPlan.Graph.Basic

/-!
# The output table of a graph

`Graph.edgeFor?` goes from a file to the edge that makes it by way of a table of places among the edges.
`Graph.WellFormed` says that table and edges agree: each output of an edge leads to that very edge, and the table
has nothing else. `accept_cases` says all that taking a statement into a graph can do, and `Graph.Grows` that it
loses nothing: edges stay where they are with what they say, table entries stay, and traces get longer only at
their ends.
-/

namespace BuildPlan.Graph

variable {g g' : Graph} {s : Statement} {origin : RuleOrigin}

/-! ### What accepting a statement does -/

theorem edgeFor?_eq_some_iff {key : String} {e : Edge} :
    g.edgeFor? key = some e ↔ ∃ place, Assoc.find? g.outputs key = some place ∧ g.edges[place]? = some e :=
  Option.bind_eq_some_iff

theorem claim_cases {found r : Option Nat} {out : Path} (h : g.claim s found out = .ok r) :
    (∃ place e, Assoc.find? g.outputs out.absolute = some place ∧ g.edges[place]? = some e ∧
      e.toStatement = s ∧ r = some place) ∨
    g.edgeFor? out.absolute = none ∧ r = found := by
  unfold claim at h
  split at h
  case h_1 place e hplace he =>
    split at h
    case isTrue hs =>
      obtain ⟨place', hplace', he'⟩ := edgeFor?_eq_some_iff.mp he
      rw [hplace] at hplace'
      cases hplace'
      cases h
      exact .inl ⟨place, e, hplace, he', hs, rfl⟩
    case isFalse => cases h
  case h_2 hnot =>
    cases h
    refine .inr ⟨?_, rfl⟩
    cases he : g.edgeFor? out.absolute with
    | none => rfl
    | some e =>
      obtain ⟨place, hplace, -⟩ := edgeFor?_eq_some_iff.mp he
      exact (hnot place e hplace he).elim

theorem claim_eq_ok (found : Option Nat) {out : Path}
    (h : ∀ e, g.edgeFor? out.absolute = some e → e.toStatement = s) : ∃ r, g.claim s found out = .ok r := by
  unfold claim
  split
  case h_1 e _ he => exact ⟨_, if_pos (h e he)⟩
  case h_2 => exact ⟨_, rfl⟩

theorem foldlM_claim_cases {outs : List Path} {found r : Option Nat}
    (h : outs.foldlM (g.claim s) found = .ok r) :
    (∀ out ∈ outs, ∀ e, g.edgeFor? out.absolute = some e → e.toStatement = s) ∧
    ((∃ place e, (∃ out ∈ outs, Assoc.find? g.outputs out.absolute = some place) ∧
        g.edges[place]? = some e ∧ e.toStatement = s ∧ r = some place) ∨
      (∀ out ∈ outs, g.edgeFor? out.absolute = none) ∧ r = found) := by
  induction outs generalizing found with
  | nil => cases h; simp
  | cons out rest ih =>
    rw [List.foldlM_cons] at h
    cases hclaim : g.claim s found out with
    | error => rw [hclaim] at h; cases h
    | ok found' =>
      rw [hclaim] at h
      obtain ⟨hrest, hr⟩ := ih h
      have hout : ∀ e, g.edgeFor? out.absolute = some e → e.toStatement = s := by
        intro e he
        rcases claim_cases hclaim with ⟨place, e', hplace, he', hs, -⟩ | ⟨hnone, -⟩
        · rw [edgeFor?_eq_some_iff.mpr ⟨place, hplace, he'⟩] at he
          cases he
          exact hs
        · rw [hnone] at he
          cases he
      refine ⟨List.forall_mem_cons.mpr ⟨hout, hrest⟩, ?_⟩
      rcases hr with ⟨place, e, ⟨o, ho, hplace⟩, hr⟩ | ⟨hnone, rfl⟩
      · exact .inl ⟨place, e, ⟨o, List.mem_cons_of_mem _ ho, hplace⟩, hr⟩
      · rcases claim_cases hclaim with ⟨place, e, hplace, hr⟩ | ⟨hnone', rfl⟩
        · exact .inl ⟨place, e, ⟨out, List.mem_cons_self, hplace⟩, hr⟩
        · exact .inr ⟨List.forall_mem_cons.mpr ⟨hnone', hnone⟩, rfl⟩

theorem foldlM_claim_eq_ok {outs : List Path} (found : Option Nat)
    (h : ∀ out ∈ outs, ∀ e, g.edgeFor? out.absolute = some e → e.toStatement = s) :
    ∃ r, outs.foldlM (g.claim s) found = .ok r := by
  induction outs generalizing found with
  | nil => exact ⟨found, rfl⟩
  | cons out rest ih =>
    obtain ⟨hout, hrest⟩ := List.forall_mem_cons.mp h
    obtain ⟨r, hr⟩ := claim_eq_ok found hout
    rw [List.foldlM_cons, hr]
    exact ih r hrest

/-- A statement is accepted exactly if every edge that makes one of its outputs says the same. -/
theorem accept_eq_ok_iff :
    (∃ g', g.accept s origin = .ok g') ↔
      ∀ out ∈ s.outs, ∀ e, g.edgeFor? out.absolute = some e → e.toStatement = s := by
  constructor
  · rintro ⟨g', h⟩
    unfold accept at h
    cases hclaim : s.outs.foldlM (g.claim s) none with
    | error => rw [hclaim] at h; cases h
    | ok r => exact (foldlM_claim_cases hclaim).1
  · intro h
    obtain ⟨r, hr⟩ := foldlM_claim_eq_ok none h
    unfold accept
    rw [hr]
    exact ⟨_, rfl⟩

/-- Everything that accepting a statement can do: an edge that says the same and makes one of the outputs gets a
trace, or no output is made yet and there is a new edge. -/
theorem accept_cases (h : g.accept s origin = .ok g') :
    (∃ place e, (∃ out ∈ s.outs, Assoc.find? g.outputs out.absolute = some place) ∧
      g.edges[place]? = some e ∧ e.toStatement = s ∧
      g' = { g.retrace place with asked := g.asked ++ [s] }) ∨
    ((∀ out ∈ s.outs, g.edgeFor? out.absolute = none) ∧
      g' = { g.addEdge s origin with asked := g.asked ++ [s] }) := by
  unfold accept at h
  cases hclaim : s.outs.foldlM (g.claim s) none with
  | error => rw [hclaim] at h; cases h
  | ok r =>
    rw [hclaim] at h
    rcases (foldlM_claim_cases hclaim).2 with ⟨place, e, hout, he, hs, rfl⟩ | ⟨hnone, rfl⟩
    · cases h
      exact .inl ⟨place, e, hout, he, hs, rfl⟩
    · cases h
      exact .inr ⟨hnone, rfl⟩

/-! ### Table and edges agree -/

/-- The table leads from each output of an edge to that edge, and nowhere else. -/
structure WellFormed (g : Graph) : Prop where
  /-- Every edge makes something. -/
  makes : ∀ e ∈ g.edges, e.outs ≠ []
  /-- Each output of an edge leads to the place of that edge. -/
  leads : ∀ place e, g.edges[place]? = some e → ∀ out ∈ e.outs,
    Assoc.find? g.outputs out.absolute = some place
  /-- What leads to a place is an output of the edge there. -/
  made : ∀ key place, Assoc.find? g.outputs key = some place →
    ∃ e, g.edges[place]? = some e ∧ ∃ out ∈ e.outs, out.absolute = key

namespace WellFormed

theorem empty (w : Workspace) : (Graph.empty w).WellFormed :=
  ⟨by simp [Graph.empty], by simp [Graph.empty], by simp [Graph.empty]⟩

theorem of_eq (h : g.WellFormed) (hedges : g'.edges = g.edges) (houtputs : g'.outputs = g.outputs) :
    g'.WellFormed := by
  obtain ⟨hmakes, hleads, hmade⟩ := h
  constructor <;> simpa only [hedges, houtputs]

theorem edgeFor?_eq_some (h : g.WellFormed) {e : Edge} (he : e ∈ g.edges) {out : Path} (hout : out ∈ e.outs) :
    g.edgeFor? out.absolute = some e := by
  obtain ⟨place, hplace⟩ := List.mem_iff_getElem?.mp he
  exact edgeFor?_eq_some_iff.mpr ⟨place, h.leads place e hplace out hout, hplace⟩

theorem mem_of_edgeFor? (h : g.WellFormed) {key : String} {e : Edge} (he : g.edgeFor? key = some e) :
    e ∈ g.edges ∧ ∃ out ∈ e.outs, out.absolute = key := by
  obtain ⟨place, hplace, hedge⟩ := edgeFor?_eq_some_iff.mp he
  obtain ⟨e', he', hout⟩ := h.made key place hplace
  rw [hedge] at he'
  cases he'
  exact ⟨List.mem_of_getElem? hedge, hout⟩

theorem find?_eq_none (h : g.WellFormed) {key : String} (hnone : g.edgeFor? key = none) :
    Assoc.find? g.outputs key = none := by
  cases hplace : Assoc.find? g.outputs key with
  | none => rfl
  | some place =>
    obtain ⟨e, he, -⟩ := h.made key place hplace
    rw [edgeFor?_eq_some_iff.mpr ⟨place, hplace, he⟩] at hnone
    cases hnone

theorem place_unique (h : g.WellFormed) {i j : Nat} {a b : Edge} (ha : g.edges[i]? = some a)
    (hb : g.edges[j]? = some b) {out out' : Path} (hout : out ∈ a.outs) (hout' : out' ∈ b.outs)
    (heq : out.absolute = out'.absolute) : i = j := by
  have hi := h.leads i a ha out hout
  have hj := h.leads j b hb out' hout'
  rw [heq, hj] at hi
  cases hi
  rfl

end WellFormed

/-! ### Nothing is lost -/

/-- Every edge is still at its place and says the same with at most more traces at the end, and every entry of the
table is still there. -/
structure Grows (g g' : Graph) : Prop where
  edges : ∀ (place : Nat) (e : Edge), g.edges[place]? = some e →
    ∃ later, g'.edges[place]? = some { e with traces := e.traces ++ later }
  outputs : ∀ key place, Assoc.find? g.outputs key = some place → Assoc.find? g'.outputs key = some place

namespace Grows

theorem of_eq (hedges : g'.edges = g.edges) (houtputs : g'.outputs = g.outputs) : g.Grows g' :=
  ⟨fun place e he => ⟨[], by simp [hedges, he]⟩, fun key place h => by rw [houtputs, h]⟩

theorem refl (g : Graph) : g.Grows g := of_eq rfl rfl

theorem trans {g'' : Graph} (h : g.Grows g') (h' : g'.Grows g'') : g.Grows g'' := by
  refine ⟨fun place e he => ?_, fun key place hkey => h'.outputs _ _ (h.outputs _ _ hkey)⟩
  obtain ⟨later, hlater⟩ := h.edges place e he
  obtain ⟨latest, hlatest⟩ := h'.edges place _ hlater
  exact ⟨later ++ latest, by simpa using hlatest⟩

end Grows

/-! ### Accepting a statement keeps both -/

theorem getElem?_retrace (place i : Nat) :
    (g.retrace place).edges[i]? =
      (g.edges[i]?).map fun e => if place = i then e.addTrace g.traceLabel else e := by
  rw [retrace, List.getElem?_modify]
  split <;> rfl

theorem retrace_wellFormed (h : g.WellFormed) (place : Nat) : (g.retrace place).WellFormed := by
  have hedge : ∀ (i : Nat) (e : Edge), (g.retrace place).edges[i]? = some e →
      ∃ e', g.edges[i]? = some e' ∧ e.outs = e'.outs := by
    intro i e he
    rw [getElem?_retrace, Option.map_eq_some_iff] at he
    obtain ⟨e', he', rfl⟩ := he
    refine ⟨e', he', ?_⟩
    split <;> rfl
  refine ⟨fun e he => ?_, fun i e he out hout => ?_, fun key i hkey => ?_⟩
  · obtain ⟨i, hi⟩ := List.mem_iff_getElem?.mp he
    obtain ⟨e', he', houts⟩ := hedge i e hi
    rw [houts]
    exact h.makes e' (List.mem_of_getElem? he')
  · obtain ⟨e', he', houts⟩ := hedge i e he
    exact h.leads i e' he' out (houts ▸ hout)
  · obtain ⟨e, he, out, hout, hkey⟩ := h.made key i hkey
    refine ⟨if place = i then e.addTrace g.traceLabel else e, ?_, out, ?_, hkey⟩
    · rw [getElem?_retrace, he]
      rfl
    · split <;> exact hout

theorem retrace_grows (place : Nat) : g.Grows (g.retrace place) := by
  refine ⟨fun i e he => ?_, fun _ _ h => h⟩
  rw [getElem?_retrace, he]
  by_cases hi : place = i
  · exact ⟨[g.traceLabel], by simp [hi, Edge.addTrace]⟩
  · exact ⟨[], by simp [hi]⟩

theorem find?_addEdge (key : String) :
    Assoc.find? (g.addEdge s origin).outputs key =
      if key ∈ s.outs.map Path.absolute then some g.edges.length else Assoc.find? g.outputs key :=
  Assoc.find?_foldl_insert _ _ _ _ _

theorem addEdge_wellFormed (h : g.WellFormed) (origin : RuleOrigin) (houts : s.outs ≠ [])
    (hnew : ∀ out ∈ s.outs, g.edgeFor? out.absolute = none) : (g.addEdge s origin).WellFormed := by
  -- an output that some old edge makes is not among the new ones
  have hold : ∀ key place, Assoc.find? g.outputs key = some place → key ∉ s.outs.map Path.absolute := by
    intro key place hkey hmem
    obtain ⟨out, hout, rfl⟩ := List.mem_map.mp hmem
    rw [h.find?_eq_none (hnew out hout)] at hkey
    cases hkey
  refine ⟨fun e he => ?_, fun i e he out hout => ?_, fun key i hkey => ?_⟩
  · rcases List.mem_append.mp he with he | he
    · exact h.makes e he
    · rw [List.mem_singleton.mp he]
      exact houts
  · rw [find?_addEdge]
    rcases Nat.lt_or_ge i g.edges.length with hi | hi
    · have he' : g.edges[i]? = some e := by rwa [addEdge, List.getElem?_append_left hi] at he
      have hlead := h.leads i e he' out hout
      rw [if_neg (hold _ _ hlead), hlead]
    · rw [addEdge, List.getElem?_append_right hi, List.getElem?_singleton] at he
      split at he
      case isTrue hlast =>
        cases he
        rw [if_pos (List.mem_map_of_mem hout), show i = g.edges.length by omega]
      case isFalse => cases he
  · rw [find?_addEdge] at hkey
    split at hkey
    case isTrue hmem =>
      cases hkey
      obtain ⟨out, hout, rfl⟩ := List.mem_map.mp hmem
      exact ⟨{ s with origin, traces := [g.traceLabel] }, by simp [addEdge], out, hout, rfl⟩
    case isFalse =>
      obtain ⟨e, he, hout⟩ := h.made key i hkey
      refine ⟨e, ?_, hout⟩
      rw [addEdge, List.getElem?_append_left (List.getElem?_eq_some_iff.mp he).1, he]

theorem addEdge_grows (h : g.WellFormed) (hnew : ∀ out ∈ s.outs, g.edgeFor? out.absolute = none) :
    g.Grows (g.addEdge s origin) := by
  refine ⟨fun i e he => ⟨[], ?_⟩, fun key place hkey => ?_⟩
  · rw [addEdge, List.getElem?_append_left (List.getElem?_eq_some_iff.mp he).1, he]
    simp
  · rw [find?_addEdge, if_neg, hkey]
    intro hmem
    obtain ⟨out, hout, rfl⟩ := List.mem_map.mp hmem
    rw [h.find?_eq_none (hnew out hout)] at hkey
    cases hkey

/-- Accepting a statement keeps table and edges in step and loses nothing. -/
theorem accept_wellFormed (h : g.WellFormed) (houts : s.outs ≠ []) (haccept : g.accept s origin = .ok g') :
    g'.WellFormed ∧ g.Grows g' := by
  rcases accept_cases haccept with ⟨place, e, -, -, -, rfl⟩ | ⟨hnew, rfl⟩
  · exact ⟨(retrace_wellFormed h place).of_eq rfl rfl, (retrace_grows place).trans (.of_eq rfl rfl)⟩
  · exact ⟨(addEdge_wellFormed h origin houts hnew).of_eq rfl rfl, (addEdge_grows h hnew).trans (.of_eq rfl rfl)⟩

end BuildPlan.Graph
