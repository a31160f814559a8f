import BuildPlan.Flag.Digest
import Mathlib.Data.List.Infix
import Mathlib.Data.List.Nodup

/-!
# Configurations with the same hash input

The hash of a configuration is made of a text in which the values stand behind one another, each after the name of its
flag. A value that looks like the end of one value and the beginning of the next (`Cites`) can be taken apart in two
ways; without such values the text says what the values are.
-/

namespace BuildPlan

/-- The text cites a flag as the hash sees it, as if a value ended in it and the value of that flag began. -/
def Cites (text name : String) : Prop := ("#" ++ name ++ "=").toList <:+: text.toList

instance (text name : String) : Decidable (Cites text name) := inferInstanceAs (Decidable (_ <:+: _))

/-! ### Separators -/

section

variable {α : Type} {c : α} {xs ys mid rest rest' : List α}

theorem eq_of_append_cons_eq (hxs : c ∉ xs) (hys : c ∉ ys) (h : xs ++ c :: rest = ys ++ c :: rest') : xs = ys := by
  induction xs generalizing ys with
  | nil =>
    cases ys with
    | nil => rfl
    | cons y ys =>
      cases h
      exact absurd List.mem_cons_self hys
  | cons x xs ih =>
    cases ys with
    | nil =>
      cases h
      exact absurd List.mem_cons_self hxs
    | cons y ys =>
      obtain ⟨rfl, htail⟩ := List.cons.inj h
      rw [ih (fun hmem => hxs (List.mem_cons_of_mem _ hmem)) (fun hmem => hys (List.mem_cons_of_mem _ hmem)) htail]

/-- A text that ends in a letter of its own does not overlap itself. -/
theorem eq_nil_or_isInfix_of_append_eq (hc : c ∉ mid) (h : mid ++ [c] ++ rest = xs ++ (mid ++ [c] ++ rest')) :
    xs = [] ∨ mid ++ [c] <:+: xs := by
  rcases List.append_eq_append_iff.mp h with ⟨more, rfl, -⟩ | ⟨more, hsplit, hrest⟩
  · exact .inr (List.prefix_append _ _).isInfix
  · rcases List.eq_nil_or_concat' more with rfl | ⟨start, last, rfl⟩
    · rw [List.append_nil] at hsplit
      exact .inr (hsplit ▸ List.infix_rfl)
    · rw [← List.append_assoc] at hsplit
      obtain ⟨rfl, hlast⟩ := List.append_inj' hsplit rfl
      cases hlast
      -- the first place of `c` is behind `mid` on one side and behind `start` on the other
      simp only [List.append_assoc, List.singleton_append] at hrest
      rw [← List.append_assoc] at hrest
      have hstart := eq_of_append_cons_eq hc (fun hmem => hc (List.mem_append_right _ hmem)) hrest
      exact .inl (List.append_left_eq_self.mp hstart)

theorem append_separator_inj (hc : c ∉ mid) (hxs : ¬ mid ++ [c] <:+: xs) (hys : ¬ mid ++ [c] <:+: ys)
    (h : xs ++ (mid ++ [c] ++ rest) = ys ++ (mid ++ [c] ++ rest')) : xs = ys ∧ rest = rest' := by
  have hsame : xs = ys := by
    rcases List.append_eq_append_iff.mp h with ⟨more, rfl, hmore⟩ | ⟨more, rfl, hmore⟩
    · rcases eq_nil_or_isInfix_of_append_eq hc hmore with rfl | hwithin
      · rw [List.append_nil]
      · exact absurd (hwithin.trans (List.suffix_append _ _).isInfix) hys
    · rcases eq_nil_or_isInfix_of_append_eq hc hmore with rfl | hwithin
      · rw [List.append_nil]
      · exact absurd (hwithin.trans (List.suffix_append _ _).isInfix) hxs
  subst hsame
  exact ⟨rfl, List.append_cancel_left (List.append_cancel_left h)⟩

end

/-! ### Entries in order -/

theorem append_cons_lt {c : Char} {xs ys : List Char} (hxs : c ∉ xs) (hys : c ∉ ys) (h : xs ++ [c] < ys ++ [c])
    (as bs : List Char) : xs ++ c :: as < ys ++ c :: bs := by
  induction xs generalizing ys with
  | nil =>
    cases ys with
    | nil => exact absurd h (List.lt_irrefl _)
    | cons y ys =>
      rcases List.cons_lt_cons_iff.mp h with hlt | ⟨rfl, -⟩
      · exact List.cons_lt_cons_iff.mpr (.inl hlt)
      · exact absurd List.mem_cons_self hys
  | cons x xs ih =>
    cases ys with
    | nil =>
      rcases List.cons_lt_cons_iff.mp h with hlt | ⟨rfl, -⟩
      · exact List.cons_lt_cons_iff.mpr (.inl hlt)
      · exact absurd List.mem_cons_self hxs
    | cons y ys =>
      rcases List.cons_lt_cons_iff.mp h with hlt | ⟨rfl, hrest⟩
      · exact List.cons_lt_cons_iff.mpr (.inl hlt)
      · refine List.cons_lt_cons_iff.mpr (.inr ⟨rfl, ih ?_ ?_ hrest⟩)
        · exact fun hmem => hxs (List.mem_cons_of_mem _ hmem)
        · exact fun hmem => hys (List.mem_cons_of_mem _ hmem)

theorem toList_hashEntry (name value : String) :
    (hashEntry (name, value)).toList = name.toList ++ '=' :: value.toList := by
  simp [hashEntry]

theorem hashEntry_lt {m n : String} (hm : '=' ∉ m.toList) (hn : '=' ∉ n.toList) (h : m ++ "=" < n ++ "=")
    (a b : String) : hashEntry (m, a) < hashEntry (n, b) := by
  change (m ++ "=").toList < (n ++ "=").toList at h
  show (hashEntry (m, a)).toList < (hashEntry (n, b)).toList
  rw [String.toList_append, String.toList_append] at h
  rw [toList_hashEntry, toList_hashEntry]
  exact append_cons_lt hm hn h a.toList b.toList

variable {names : List String} {v w : String → String}

theorem pairwise_sortOn_hashEntry (hnames : names.Nodup) :
    (Text.sortOn (· ++ "=") names).Pairwise fun m n => m ++ "=" < n ++ "=" := by
  have hnodup := (Text.sortOn_perm (· ++ "=") names).nodup_iff.mpr hnames
  refine ((Text.pairwise_sortOn (· ++ "=") names).and hnodup).imp fun {m n} h => String.not_le.mp fun hge => h.2 ?_
  have heq := congrArg String.toList (String.le_antisymm h.1 hge)
  rw [String.toList_append, String.toList_append] at heq
  exact String.toList_injective (List.append_cancel_right heq)

theorem hashInput_eq_intercalate (hnames : names.Nodup) (hplain : ∀ name ∈ names, '=' ∉ name.toList)
    (v : String → String) :
    hashInput (names.map fun name => (name, v name)) =
      "#".intercalate ((Text.sortOn (· ++ "=") names).map fun name => hashEntry (name, v name)) := by
  rw [hashInput, List.map_map]
  refine congrArg ("#".intercalate ·) ?_
  refine Text.sortTexts_eq_of_perm ((Text.sortOn_perm (· ++ "=") names).map _).symm (List.pairwise_map.mpr ?_)
  refine (pairwise_sortOn_hashEntry hnames).imp_of_mem fun {m n} hm hn hlt => String.not_lt.mp (String.lt_asymm ?_)
  exact hashEntry_lt (hplain m (Text.mem_sortOn.mp hm)) (hplain n (Text.mem_sortOn.mp hn)) hlt _ _

/-! ### Taking a text apart -/

/-- What follows the first name in the text of a configuration. -/
def afterName (value : String → String) : String → List String → List Char
  | m, [] => (value m).toList
  | m, n :: rest => (value m).toList ++ ('#' :: n.toList ++ ['='] ++ afterName value n rest)

theorem toList_intercalate_hashEntry (value : String → String) (m : String) (rest : List String) :
    ("#".intercalate ((m :: rest).map fun name => hashEntry (name, value name))).toList =
      m.toList ++ '=' :: afterName value m rest := by
  induction rest generalizing m with
  | nil => simp [toList_hashEntry, afterName]
  | cons n rest ih =>
    have hrest := ih n
    rw [String.toList_intercalate, List.map_map, List.map_cons] at hrest
    rw [String.toList_intercalate, List.map_map, List.map_cons, List.map_cons, List.intercalate_cons_cons, hrest]
    simp [toList_hashEntry, afterName]

/-- In a fixed order of the names, a text without citations has one reading. -/
theorem eq_of_afterName_eq {m : String} {rest : List String} (hplain : ∀ name ∈ rest, '=' ∉ name.toList)
    (hv : (m :: rest).Pairwise fun m n => ¬ Cites (v m) n) (hw : (m :: rest).Pairwise fun m n => ¬ Cites (w m) n)
    (h : afterName v m rest = afterName w m rest) : ∀ name ∈ m :: rest, v name = w name := by
  induction rest generalizing m with
  | nil =>
    intro name hname
    rw [List.mem_singleton.mp hname]
    exact String.toList_injective h
  | cons n rest ih =>
    obtain ⟨hn, hrest⟩ := List.forall_mem_cons.mp hplain
    obtain ⟨hvm, hv⟩ := List.pairwise_cons.mp hv
    obtain ⟨hwm, hw⟩ := List.pairwise_cons.mp hw
    have hcites : ∀ text, ¬ Cites text n → ¬ '#' :: n.toList ++ ['='] <:+: text.toList := fun text h => by
      simpa [Cites] using h
    obtain ⟨hvalue, hafter⟩ := append_separator_inj (by simpa using hn) (hcites _ (hvm n List.mem_cons_self))
      (hcites _ (hwm n List.mem_cons_self)) h
    exact List.forall_mem_cons.mpr ⟨String.toList_injective hvalue, ih hrest hv hw hafter⟩

theorem eq_of_intercalate_eq (hplain : ∀ name ∈ names, '=' ∉ name.toList)
    (hv : names.Pairwise fun m n => ¬ Cites (v m) n) (hw : names.Pairwise fun m n => ¬ Cites (w m) n)
    (h : "#".intercalate (names.map fun name => hashEntry (name, v name)) =
      "#".intercalate (names.map fun name => hashEntry (name, w name))) :
    ∀ name ∈ names, v name = w name := by
  cases names with
  | nil => nofun
  | cons m rest =>
    have htext := congrArg String.toList h
    rw [toList_intercalate_hashEntry, toList_intercalate_hashEntry] at htext
    have hafter := (List.cons.inj (List.append_cancel_left htext)).2
    exact eq_of_afterName_eq (List.forall_mem_cons.mp hplain).2 hv hw hafter

/-- **The hash input says what the values are**, if no name has an equals sign and no value cites a flag that comes
after its own. -/
theorem hashInput_eq_iff (hnames : names.Nodup) (hplain : ∀ name ∈ names, '=' ∉ name.toList)
    (hv : ∀ m ∈ names, ∀ n ∈ names, m ++ "=" < n ++ "=" → ¬ Cites (v m) n)
    (hw : ∀ m ∈ names, ∀ n ∈ names, m ++ "=" < n ++ "=" → ¬ Cites (w m) n) :
    hashInput (names.map fun name => (name, v name)) = hashInput (names.map fun name => (name, w name)) ↔
      ∀ name ∈ names, v name = w name := by
  have hmem : ∀ {name}, name ∈ Text.sortOn (· ++ "=") names ↔ name ∈ names := Text.mem_sortOn
  have hpairwise : ∀ u : String → String, (∀ m ∈ names, ∀ n ∈ names, m ++ "=" < n ++ "=" → ¬ Cites (u m) n) →
      (Text.sortOn (· ++ "=") names).Pairwise fun m n => ¬ Cites (u m) n := fun u hu =>
    (pairwise_sortOn_hashEntry hnames).imp_of_mem fun hm hn => hu _ (hmem.mp hm) _ (hmem.mp hn)
  constructor
  · intro h name hname
    rw [hashInput_eq_intercalate hnames hplain, hashInput_eq_intercalate hnames hplain] at h
    have hsorted : ∀ name ∈ Text.sortOn (· ++ "=") names, '=' ∉ name.toList := fun name h => hplain name (hmem.mp h)
    exact eq_of_intercalate_eq hsorted (hpairwise v hv) (hpairwise w hw) h name (hmem.mpr hname)
  · intro h
    rw [List.map_congr_left fun name hname => by rw [h name hname]]

theorem hashInput_eq_iff_sample :
    hashInput (["b", "a"].map fun name => (name, if name = "a" then "1#2" else "b=3")) ≠
      hashInput (["b", "a"].map fun name => (name, if name = "a" then "1" else "2#b=3")) := by
  intro h
  have hsame := (hashInput_eq_iff (by decide) (by decide) (by decide +kernel) (by decide +kernel)).mp h
  exact absurd (hsame "a" (by decide)) (by decide)

/-- Where a value cites the next flag, two configurations may have the same hash input. -/
theorem hashInput_not_injective : ∃ (names : List String) (v w : String → String), names.Nodup ∧
    (∃ name ∈ names, v name ≠ w name) ∧
    hashInput (names.map fun name => (name, v name)) = hashInput (names.map fun name => (name, w name)) :=
  ⟨["a", "b"], fun name => if name = "a" then "1#b=2" else "3", fun name => if name = "a" then "1" else "2#b=3",
    by decide, ⟨"a", by decide, by decide⟩, by decide +kernel⟩

end BuildPlan
