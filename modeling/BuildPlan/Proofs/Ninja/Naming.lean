import BuildPlan.Ninja.File

/-!
# How edges get the names of their rules

Names are given to the edges one after the other. `Naming.Covers` says what is known of the edges that have their names
already, and one more edge keeps it: edges with one name share their rule, each name is declared once, and the made-up
names are `__rule0`, `__rule1` and so on in the order of their declarations.
-/

namespace BuildPlan

/-! ### Made-up names -/

theorem isReserved_anonymousRuleName (n : Nat) : isReservedRuleName (anonymousRuleName n) = true := by
  have hprefix : anonymousRuleStart.toList <+: (anonymousRuleName n).toList := by
    rw [anonymousRuleName, String.toList_append]
    exact List.prefix_append _ _
  rw [isReservedRuleName, List.isPrefixOf_iff_prefix.mpr hprefix, Bool.or_true]

theorem anonymousRuleName_injective : Function.Injective anonymousRuleName := by
  intro m n h
  have htexts : (toString m).toList = (toString n).toList := by
    have hlists := congrArg String.toList h
    simp only [anonymousRuleName, String.toList_append] at hlists
    exact List.append_cancel_left hlists
  have hdigits : Nat.toDigits 10 m = Nat.toDigits 10 n := by
    rwa [← Nat.toList_repr, ← Nat.toList_repr]
  have hvalues := congrArg (Nat.ofDigitChars 10 · 0) hdigits
  simpa only [Nat.ofDigitChars_ten_toDigits] using hvalues

namespace Ninja

/-! ### Names of edges -/

/-- The edges use one rule: one that has a name, or else one object that they share. -/
inductive SharesRule (a b : Edge) : Prop
  | named (given : a.rule.name ≠ "") (same : a.rule.name = b.rule.name)
  | object (id : String) (ha : a.rule.name = "") (hb : b.rule.name = "") (rule : a.rule = b.rule)
    (origin : a.origin = .shared id) (origin' : b.origin = .shared id)

theorem ruleKey?_of_named {e : Edge} (h : e.rule.name ≠ "") : ruleKey? e = some (.named e.rule.name) := if_pos h

theorem named_of_ruleKey? {e : Edge} {name : String} (h : ruleKey? e = some (.named name)) :
    e.rule.name ≠ "" ∧ e.rule.name = name := by
  by_cases hname : e.rule.name = ""
  · rw [ruleKey?, if_neg (not_not_intro hname)] at h
    split at h <;> cases h
  · rw [ruleKey?_of_named hname] at h
    cases h
    exact ⟨hname, rfl⟩

theorem object_of_ruleKey? {e : Edge} {id : String} {rule : Rule} (h : ruleKey? e = some (.object id rule)) :
    e.rule.name = "" ∧ e.origin = .shared id ∧ e.rule = rule := by
  by_cases hname : e.rule.name = ""
  · rw [ruleKey?, if_neg (not_not_intro hname)] at h
    split at h
    case h_1 => cases h
    case h_2 horigin =>
      cases h
      exact ⟨hname, horigin, rfl⟩
  · rw [ruleKey?_of_named hname] at h
    cases h

theorem sharesRule_of_key {a b : Edge} {key : RuleKey} (ha : ruleKey? a = some key) (hb : ruleKey? b = some key) :
    SharesRule a b := by
  cases key with
  | named name =>
    obtain ⟨hgiven, hname⟩ := named_of_ruleKey? ha
    exact .named hgiven (hname.trans (named_of_ruleKey? hb).2.symm)
  | object id rule =>
    obtain ⟨hname, horigin, hrule⟩ := object_of_ruleKey? ha
    obtain ⟨hname', horigin', hrule'⟩ := object_of_ruleKey? hb
    exact .object id hname hname' (hrule.trans hrule'.symm) horigin horigin'

/-- If an earlier element agrees with each later one on `g` as soon as it agrees on `f`, so do any two. -/
theorem eq_of_pairwise {α β γ : Type} {xs : List α} {f : α → β} {g : α → γ}
    (h : xs.Pairwise fun a b => f a = f b → g a = g b) {a b : α} (ha : a ∈ xs) (hb : b ∈ xs) (heq : f a = f b) :
    g a = g b := by
  have hflip : xs.Pairwise fun a b => f b = f a → g b = g a := h.imp fun hab heq => (hab heq.symm).symm
  exact h.forall_of_forall_of_flip (fun _ _ _ => rfl) hflip ha hb heq

/-- The names of the rules that are declared for some edges. -/
def declaredIn (named : List NamedEdge) : List String := (named.filter (·.declares)).map (·.ruleName)

/-- What is known when the edges `done` have their names. -/
structure Naming.Covers (n : Naming) (done : List NamedEdge) : Prop where
  free : ∀ m ∈ done, isReservedRuleName m.edge.rule.name = false
  known : ∀ m ∈ done, ∀ {key}, ruleKey? m.edge = some key → Assoc.find? n.known key = some m.ruleName
  origin : ∀ {key name}, Assoc.find? n.known key = some name → ∃ m ∈ done, ruleKey? m.edge = some key ∧ m.ruleName = name
  given : ∀ m ∈ done, m.edge.rule.name ≠ "" → m.ruleName = m.edge.rule.name
  madeUp : ∀ m ∈ done, m.edge.rule.name = "" → ∃ i < n.next, m.ruleName = anonymousRuleName i
  declared : ∀ m ∈ done, m.ruleName ∈ declaredIn done
  nodup : (declaredIn done).Nodup
  counted : (declaredIn done).filter isReservedRuleName = (List.range n.next).map anonymousRuleName
  apart : done.Pairwise fun a b => a.ruleName = b.ruleName →
    ∃ key, ruleKey? a.edge = some key ∧ ruleKey? b.edge = some key

/-- An edge gets the name that its rule has already, or its rule is declared. -/
theorem Naming.nameEdge_cases (n : Naming) (e : Edge) :
    (∃ key name, ruleKey? e = some key ∧ Assoc.find? n.known key = some name ∧
      n.nameEdge e = (n, ⟨e, name, false⟩)) ∨
    ∃ n' name, n.nameEdge e = (n', ⟨e, name, true⟩) ∧
      (∀ key, ruleKey? e = some key → Assoc.find? n.known key = none) ∧
      (∀ key, Assoc.find? n'.known key = if ruleKey? e = some key then some name else Assoc.find? n.known key) ∧
      (e.rule.name ≠ "" ∧ name = e.rule.name ∧ n'.next = n.next ∨
        e.rule.name = "" ∧ name = anonymousRuleName n.next ∧ n'.next = n.next + 1) := by
  obtain ⟨n₁, name, hfresh, hknown, hname⟩ : ∃ n₁ name, n.fresh e.rule = (n₁, name) ∧ n₁.known = n.known ∧
      (e.rule.name ≠ "" ∧ name = e.rule.name ∧ n₁.next = n.next ∨
        e.rule.name = "" ∧ name = anonymousRuleName n.next ∧ n₁.next = n.next + 1) := by
    by_cases hname : e.rule.name = ""
    · exact ⟨_, _, if_neg (not_not_intro hname), rfl, .inr ⟨hname, rfl, rfl⟩⟩
    · exact ⟨n, e.rule.name, if_pos hname, rfl, .inl ⟨hname, rfl, rfl⟩⟩
  cases hkey : ruleKey? e with
  | none =>
    refine .inr ⟨n₁, name, ?_, by simp, by simp [hknown], hname⟩
    simp only [nameEdge, hkey, hfresh]
  | some key =>
    cases hfound : Assoc.find? n.known key with
    | some known =>
      refine .inl ⟨key, known, rfl, hfound, ?_⟩
      simp only [nameEdge, hkey, hfound]
    | none =>
      refine .inr ⟨{ n₁ with known := Assoc.insert n₁.known key name }, name, ?_, ?_, ?_, hname⟩
      · simp only [nameEdge, hkey, hfound, hfresh]
      · intro key' hkey'
        rw [Option.some.inj hkey'] at hfound
        exact hfound
      · intro key'
        rw [Assoc.find?_insert, hknown]
        simp only [Option.some.injEq, eq_comm]

namespace Naming.Covers

variable {n : Naming} {done : List NamedEdge}

theorem empty : ({} : Naming).Covers [] where
  free := by simp
  known := by simp
  origin h := by simp at h
  given := by simp
  madeUp := by simp
  declared := by simp
  nodup := List.nodup_nil
  counted := by simp [declaredIn]
  apart := .nil

theorem ne_of_anonymous (h : n.Covers done) {m : NamedEdge} (hm : m ∈ done) :
    m.ruleName ≠ anonymousRuleName n.next := by
  intro heq
  by_cases hname : m.edge.rule.name = ""
  · obtain ⟨i, hi, hmade⟩ := h.madeUp m hm hname
    have hsame := anonymousRuleName_injective (hmade.symm.trans heq)
    omega
  · have hfree := h.free m hm
    rw [← h.given m hm hname, heq, isReserved_anonymousRuleName] at hfree
    cases hfree

theorem ne_of_given (h : n.Covers done) {e : Edge}
    (hfree : isReservedRuleName e.rule.name = false) (hnew : Assoc.find? n.known (.named e.rule.name) = none)
    {m : NamedEdge} (hm : m ∈ done) : m.ruleName ≠ e.rule.name := by
  intro heq
  by_cases hanonymous : m.edge.rule.name = ""
  · obtain ⟨i, -, hmade⟩ := h.madeUp m hm hanonymous
    rw [← heq, hmade, isReserved_anonymousRuleName] at hfree
    cases hfree
  · have hgiven := h.given m hm hanonymous
    have hknown := h.known m hm (ruleKey?_of_named hanonymous)
    rw [← hgiven, heq, hnew] at hknown
    cases hknown

theorem declaredIn_append (done more : List NamedEdge) :
    declaredIn (done ++ more) = declaredIn done ++ declaredIn more := by
  rw [declaredIn, List.filter_append, List.map_append]
  rfl

theorem same_key (h : n.Covers done) {a b : NamedEdge} (ha : a ∈ done) (hb : b ∈ done)
    (heq : a.ruleName = b.ruleName) : ruleKey? a.edge = ruleKey? b.edge := by
  have hkeys : done.Pairwise fun a b => a.ruleName = b.ruleName → ruleKey? a.edge = ruleKey? b.edge :=
    h.apart.imp fun hshares heq => by
      obtain ⟨key, hkey, hkey'⟩ := hshares heq
      rw [hkey, hkey']
  exact eq_of_pairwise hkeys ha hb heq

theorem reuse (h : n.Covers done) {e : Edge} (hfree : isReservedRuleName e.rule.name = false) {key : RuleKey}
    {name : String} (hkey : ruleKey? e = some key) (hfound : Assoc.find? n.known key = some name) :
    n.Covers (done ++ [⟨e, name, false⟩]) := by
  obtain ⟨m, hm, hmkey, rfl⟩ := h.origin hfound
  have hdeclared : declaredIn (done ++ [⟨e, m.ruleName, false⟩]) = declaredIn done := by
    rw [declaredIn_append]
    exact List.append_nil _
  constructor
  case free => exact List.forall_mem_append.mpr ⟨h.free, by simpa using hfree⟩
  case known =>
    intro a ha key' hkey'
    rcases List.mem_append.mp ha with ha | ha
    · exact h.known a ha hkey'
    · rw [List.mem_singleton.mp ha] at hkey' ⊢
      rw [Option.some.inj (hkey'.symm.trans hkey)]
      exact hfound
  case origin =>
    intro key' name' hfound'
    obtain ⟨a, ha, hakey, haname⟩ := h.origin hfound'
    exact ⟨a, List.mem_append_left _ ha, hakey, haname⟩
  case given =>
    refine List.forall_mem_append.mpr ⟨h.given, fun a ha hname => ?_⟩
    rw [List.mem_singleton.mp ha] at hname ⊢
    rw [ruleKey?_of_named hname] at hkey
    cases hkey
    obtain ⟨hgiven, hsame⟩ := named_of_ruleKey? hmkey
    exact (h.given m hm hgiven).trans hsame
  case madeUp =>
    refine List.forall_mem_append.mpr ⟨h.madeUp, fun a ha hname => ?_⟩
    rw [List.mem_singleton.mp ha] at hname ⊢
    cases key with
    | named given => exact absurd hname (named_of_ruleKey? hkey).1
    | object id rule => exact h.madeUp m hm (object_of_ruleKey? hmkey).1
  case declared =>
    rw [hdeclared]
    refine List.forall_mem_append.mpr ⟨h.declared, fun a ha => ?_⟩
    rw [List.mem_singleton.mp ha]
    exact h.declared m hm
  case nodup => exact hdeclared ▸ h.nodup
  case counted => exact hdeclared ▸ h.counted
  case apart =>
    refine List.pairwise_append.mpr ⟨h.apart, List.pairwise_singleton _ _, fun a ha b hb heq => ?_⟩
    rw [List.mem_singleton.mp hb] at heq ⊢
    exact ⟨key, (h.same_key ha hm heq).trans hmkey, hkey⟩

theorem declare (h : n.Covers done) {e : Edge} (hfree : isReservedRuleName e.rule.name = false) {n' : Naming}
    {name : String} (hnew : ∀ key, ruleKey? e = some key → Assoc.find? n.known key = none)
    (hknown : ∀ key, Assoc.find? n'.known key = if ruleKey? e = some key then some name else Assoc.find? n.known key)
    (hname : e.rule.name ≠ "" ∧ name = e.rule.name ∧ n'.next = n.next ∨
      e.rule.name = "" ∧ name = anonymousRuleName n.next ∧ n'.next = n.next + 1) :
    n'.Covers (done ++ [⟨e, name, true⟩]) := by
  have hfresh : ∀ m ∈ done, m.ruleName ≠ name := by
    intro m hm
    rcases hname with ⟨hgiven, rfl, -⟩ | ⟨-, rfl, -⟩
    · exact h.ne_of_given hfree (hnew _ (ruleKey?_of_named hgiven)) hm
    · exact h.ne_of_anonymous hm
  have hle : n.next ≤ n'.next := by omega
  have hdeclared : declaredIn (done ++ [⟨e, name, true⟩]) = declaredIn done ++ [name] := declaredIn_append _ _
  constructor
  case free => exact List.forall_mem_append.mpr ⟨h.free, by simpa using hfree⟩
  case known =>
    intro a ha key hkey
    rw [hknown]
    rcases List.mem_append.mp ha with ha | ha
    · have hfound := h.known a ha hkey
      rw [if_neg, hfound]
      intro hsame
      rw [hnew key hsame] at hfound
      cases hfound
    · rw [List.mem_singleton.mp ha] at hkey ⊢
      rw [if_pos hkey]
  case origin =>
    intro key name' hfound
    rw [hknown] at hfound
    by_cases hkey : ruleKey? e = some key
    · rw [if_pos hkey] at hfound
      exact ⟨_, List.mem_append_right _ (List.mem_singleton_self _), hkey, Option.some.inj hfound⟩
    · rw [if_neg hkey] at hfound
      obtain ⟨a, ha, hakey, haname⟩ := h.origin hfound
      exact ⟨a, List.mem_append_left _ ha, hakey, haname⟩
  case given =>
    refine List.forall_mem_append.mpr ⟨h.given, fun a ha hgiven => ?_⟩
    rw [List.mem_singleton.mp ha] at hgiven ⊢
    rcases hname with ⟨-, hsame, -⟩ | ⟨hnone, -⟩
    · exact hsame
    · exact absurd hnone hgiven
  case madeUp =>
    refine List.forall_mem_append.mpr ⟨fun a ha hnone => ?_, fun a ha hnone => ?_⟩
    · obtain ⟨i, hi, hmade⟩ := h.madeUp a ha hnone
      exact ⟨i, by omega, hmade⟩
    · rw [List.mem_singleton.mp ha] at hnone ⊢
      rcases hname with ⟨hgiven, -⟩ | ⟨-, hmade, hnext⟩
      · exact absurd hnone hgiven
      · exact ⟨n.next, by omega, hmade⟩
  case declared =>
    rw [hdeclared]
    refine List.forall_mem_append.mpr ⟨fun a ha => List.mem_append_left _ (h.declared a ha), fun a ha => ?_⟩
    rw [List.mem_singleton.mp ha]
    exact List.mem_append_right _ (List.mem_singleton_self _)
  case nodup =>
    rw [hdeclared]
    refine List.nodup_append.mpr ⟨h.nodup, List.pairwise_singleton _ _, fun a ha b hb => ?_⟩
    obtain ⟨m, hm, rfl⟩ := List.mem_map.mp ha
    rw [List.mem_singleton.mp hb]
    exact hfresh m (List.mem_filter.mp hm).1
  case counted =>
    rw [hdeclared, List.filter_append, h.counted]
    rcases hname with ⟨-, rfl, hnext⟩ | ⟨-, rfl, hnext⟩
    · simp [hfree, hnext]
    · simp [isReserved_anonymousRuleName, hnext, List.range_succ]
  case apart =>
    refine List.pairwise_append.mpr ⟨h.apart, List.pairwise_singleton _ _, fun a ha b hb heq => ?_⟩
    rw [List.mem_singleton.mp hb] at heq
    exact absurd heq (hfresh a ha)

theorem nameEdge (h : n.Covers done) {e : Edge} (hfree : isReservedRuleName e.rule.name = false) :
    (n.nameEdge e).1.Covers (done ++ [(n.nameEdge e).2]) := by
  rcases n.nameEdge_cases e with ⟨key, name, hkey, hfound, hnamed⟩ | ⟨n', name, hnamed, hnew, hknown, hname⟩
  · rw [hnamed]
    exact h.reuse hfree hkey hfound
  · rw [hnamed]
    exact h.declare hfree hnew hknown hname

/-- The edges get their names, one after the other. -/
theorem nameEdges (h : n.Covers done) {edges : List Edge} (hfree : ∀ e ∈ edges, isReservedRuleName e.rule.name = false) :
    (n.nameEdges edges).1.Covers (done ++ (n.nameEdges edges).2) := by
  induction edges generalizing n done with
  | nil => simpa [Naming.nameEdges] using h
  | cons e rest ih =>
    obtain ⟨hfirst, hrest⟩ := List.forall_mem_cons.mp hfree
    have hall := ih (h.nameEdge hfirst) hrest
    rwa [List.append_assoc] at hall

end Naming.Covers

end Ninja

end BuildPlan
