import BuildPlan.Proofs.Path.Derivation
import BuildPlan.Proofs.Path.Layout
import Mathlib.Data.List.Infix
import Mathlib.Data.Nat.Digits.Defs

/-!
# Build paths of different configurations

A build path carries the hash of its configuration in front of its relative path. It leads to another file than the
build paths of other configurations do, unless its relative path starts with a slash and so stands alone. That happens
only if a text that starts with a slash has been brought in.
-/

namespace BuildPlan

/-- The text starts with a slash, so that as a path it stands alone. -/
def IsRooted (text : String) : Prop := text.toList.head? = some '/'

instance (text : String) : Decidable (IsRooted text) := inferInstanceAs (Decidable (_ = _))

/-- The form of the hashes of configurations. -/
def IsConfigHash (hash : String) : Prop :=
  hash.toList.length = 8 ∧ ∀ c ∈ hash.toList, c ∈ "0123456789ABCDEF".toList

instance (hash : String) : Decidable (IsConfigHash hash) :=
  decidable_of_iff (hash.toList.length = 8 ∧ hash.toList.all ("0123456789ABCDEF".toList.contains ·))
    (by simp [IsConfigHash])

/-- How a build path is made, whatever the configuration: from a relative path or from the path of another file, and
then step by step. -/
inductive OutChain where
  | out (rel : String)
  | ofSource (root rel : String)
  | ofElsewhere (text : String)
  | derived (chain : OutChain) (derivation : Derivation) (text : String)

namespace OutChain

/-- The build path that is made so in a workspace. -/
def path (w : Workspace) : OutChain → OutPath
  | .out rel => w.out rel
  | .ofSource root rel => w.outPath (.source root rel)
  | .ofElsewhere text => w.outPath (.elsewhere text)
  | .derived chain derivation text => (chain.path w).derive derivation text

/-- The texts that may come to the front of the relative path. -/
def texts : OutChain → List String
  | .out rel | .ofSource _ rel | .ofElsewhere rel => [rel]
  | .derived chain .extension _ => chain.texts
  | .derived chain _ text => text :: chain.texts

end OutChain

/-! ### What stands in front -/

namespace Lexical

theorem isPrefix_trimSlashes (p : List Char) : trimSlashes p <+: p := by
  have hsuffix := List.dropWhile_suffix (l := p.reverse) (· = '/')
  rw [trimSlashes, ← List.reverse_suffix, List.reverse_reverse]
  exact hsuffix

theorem isPrefix_dirPart (p : List Char) : dirPart p <+: p := ⟨basename p, dirPart_append_basename p⟩

theorem isPrefix_dirname (p : List Char) : dirname p <+: p := by
  rw [dirname_eq]
  split
  · exact isPrefix_dirPart p
  · exact (isPrefix_trimSlashes _).trans (isPrefix_dirPart p)

theorem isPrefix_nameStem (name : List Char) : nameStem name <+: name := by
  rcases nameStem_cases name with ⟨hstem, -⟩ | ⟨extension, hname, -⟩
  · rw [hstem]
  · exact ⟨'.' :: extension, hname.symm⟩

theorem isPrefix_stem (p : List Char) : stem p <+: p := by
  obtain ⟨rest, hrest⟩ := isPrefix_nameStem (basename p)
  refine ⟨rest, ?_⟩
  rw [stem, List.append_assoc, hrest, dirPart_append_basename]

theorem head?_of_isPrefix {xs p : List Char} {c : Char} (h : xs <+: p) (hc : xs.head? = some c) : p.head? = some c := by
  obtain ⟨rest, rfl⟩ := h
  rw [List.head?_append, hc]
  rfl

theorem head?_append_eq {xs ys : List Char} {c : Char} (h : (xs ++ ys).head? = some c) :
    xs.head? = some c ∨ ys.head? = some c := by
  rw [List.head?_append, Option.or_eq_some_iff] at h
  exact h.imp_right And.right

theorem head?_join {a b : List Char} (h : (join a b).head? = some '/') : a.head? = some '/' ∨ b.head? = some '/' := by
  unfold join at h
  split at h
  · exact .inr h
  · split at h
    · exact head?_append_eq h
    case isFalse hmore =>
      cases a with
      | nil => exact absurd (.inl rfl) hmore
      | cons first rest => exact .inl h

end Lexical

namespace OutPath

variable {p : OutPath}

/-- Deriving a path brings a slash to its front only with a text that starts with one and is put there. -/
theorem isRooted_of_derive {derivation : Derivation} {text : String} (h : IsRooted (p.derive derivation text).rel) :
    IsRooted p.rel ∨ derivation ≠ .extension ∧ IsRooted text := by
  cases derivation with
  | extension =>
    change (String.ofList _).toList.head? = _ at h
    rw [String.toList_ofList] at h
    rcases Lexical.head?_append_eq h with hstem | hdot
    · exact .inl (Lexical.head?_of_isPrefix (Lexical.isPrefix_stem _) hstem)
    · cases hdot
  | suffix =>
    change (p.rel ++ text).toList.head? = _ at h
    rw [String.toList_append] at h
    exact (Lexical.head?_append_eq h).imp_right fun htext => ⟨nofun, htext⟩
  | fileName =>
    change (String.ofList _).toList.head? = _ at h
    rw [String.toList_ofList] at h
    refine (Lexical.head?_join h).imp (fun hdir => ?_) fun htext => ⟨nofun, htext⟩
    exact Lexical.head?_of_isPrefix (Lexical.isPrefix_dirname _) hdir
  | join =>
    change (String.ofList _).toList.head? = _ at h
    rw [String.toList_ofList] at h
    exact (Lexical.head?_join h).imp_right fun htext => ⟨nofun, htext⟩
  | nest =>
    change (String.ofList _).toList.head? = _ at h
    rw [String.toList_ofList] at h
    exact (Lexical.head?_join h).symm.imp_right fun htext => ⟨nofun, htext⟩

theorem absolute_of_isRooted (h : IsRooted p.rel) : p.absolute = p.rel := by
  unfold IsRooted at h
  rw [absolute, joinText, Lexical.join, if_pos h, String.ofList_toList]

theorem toList_absolute (hhash : IsConfigHash p.hash) (h : ¬ IsRooted p.rel) :
    p.absolute.toList = p.root.toList ++ '-' :: (p.hash.toList ++ '/' :: p.rel.toList) := by
  have hne : p.hash.toList ≠ [] := by
    intro hnil
    have hlength := hhash.1
    rw [hnil] at hlength
    cases hlength
  have hdirectory : p.directory.toList = p.root.toList ++ '-' :: p.hash.toList := by
    rw [directory, buildDirectory, if_neg (fun hempty => hne (by rw [hempty]; rfl))]
    simp
  have hlast : ¬ (p.directory.toList = [] ∨ p.directory.toList.getLast? = some '/') := by
    rw [hdirectory]
    rintro (hnil | hslash)
    · simp at hnil
    · have hhashLast : p.hash.toList.getLast? = some '/' := by
        rw [List.getLast?_append_cons, List.getLast?_cons_of_ne_nil hne] at hslash
        exact hslash
      exact absurd (hhash.2 '/' (List.mem_of_getLast? hhashLast)) (by decide)
  unfold IsRooted at h
  rw [absolute, joinText, String.toList_ofList, Lexical.join, if_neg h, if_neg hlast, hdirectory]
  simp

end OutPath

namespace OutChain

variable {w : Workspace}

@[simp] theorem root_path (chain : OutChain) : (chain.path w).root = w.buildRoot := by
  induction chain with
  | out | ofSource | ofElsewhere => rfl
  | derived chain derivation text ih =>
    rw [← ih]
    cases derivation <;> rfl

@[simp] theorem hash_path (chain : OutChain) : (chain.path w).hash = w.hash := by
  induction chain with
  | out | ofSource | ofElsewhere => rfl
  | derived chain derivation text ih =>
    rw [← ih]
    cases derivation <;> rfl

theorem exists_isRooted {chain : OutChain} (h : IsRooted (chain.path w).rel) : ∃ text ∈ chain.texts, IsRooted text := by
  induction chain with
  | out rel => exact ⟨rel, List.mem_singleton_self rel, h⟩
  | ofSource root rel => exact ⟨rel, List.mem_singleton_self rel, h⟩
  | ofElsewhere text => exact ⟨text, List.mem_singleton_self text, h⟩
  | derived chain derivation text ih =>
    rcases OutPath.isRooted_of_derive h with hrel | ⟨hderivation, htext⟩
    · obtain ⟨other, hother, hrooted⟩ := ih hrel
      refine ⟨other, ?_, hrooted⟩
      cases derivation with
      | extension => exact hother
      | _ => exact List.mem_cons_of_mem _ hother
    · refine ⟨text, ?_, htext⟩
      cases derivation with
      | extension => exact absurd rfl hderivation
      | _ => exact List.mem_cons_self

end OutChain

/-- **Build paths of different configurations lead to different files unless one of them stands alone**, and a path
stands alone only if a text that starts with a slash has come to its front. -/
theorem absolute_eq_absolute_iff (w : Workspace) {hash hash' : String} (hhash : IsConfigHash hash)
    (hhash' : IsConfigHash hash') (hne : hash ≠ hash') (chain chain' : OutChain) :
    let p := chain.path (w.withHash hash)
    let p' := chain'.path (w.withHash hash')
    (p.absolute = p'.absolute ↔ IsRooted p.rel ∧ p.rel = p'.absolute ∨ IsRooted p'.rel ∧ p'.rel = p.absolute) ∧
      ((∀ text ∈ chain.texts ++ chain'.texts, ¬ IsRooted text) → p.absolute ≠ p'.absolute) := by
  intro p p'
  have happart : ¬ IsRooted p.rel → ¬ IsRooted p'.rel → p.absolute ≠ p'.absolute := by
    intro hrel hrel' heq
    have htext := congrArg String.toList heq
    have hp : IsConfigHash p.hash := by rwa [OutChain.hash_path]
    have hp' : IsConfigHash p'.hash := by rwa [OutChain.hash_path]
    rw [OutPath.toList_absolute hp hrel, OutPath.toList_absolute hp' hrel'] at htext
    rw [OutChain.root_path, OutChain.root_path, OutChain.hash_path, OutChain.hash_path] at htext
    have hrest := (List.cons.inj (List.append_cancel_left htext)).2
    have hlist := (List.append_inj hrest (hhash.1.trans hhash'.1.symm)).1
    exact hne (String.toList_injective hlist)
  constructor
  · constructor
    · intro heq
      by_cases hrel : IsRooted p.rel
      · exact .inl ⟨hrel, (OutPath.absolute_of_isRooted hrel).symm.trans heq⟩
      · by_cases hrel' : IsRooted p'.rel
        · exact .inr ⟨hrel', (OutPath.absolute_of_isRooted hrel').symm.trans heq.symm⟩
        · exact absurd heq (happart hrel hrel')
    · rintro (⟨hrel, heq⟩ | ⟨hrel', heq⟩)
      · rw [OutPath.absolute_of_isRooted hrel, heq]
      · rw [OutPath.absolute_of_isRooted hrel', heq]
  · intro htexts
    refine happart (fun hrel => ?_) fun hrel' => ?_
    · obtain ⟨text, htext, hrooted⟩ := OutChain.exists_isRooted hrel
      exact htexts text (List.mem_append_left _ htext) hrooted
    · obtain ⟨text, htext, hrooted⟩ := OutChain.exists_isRooted hrel'
      exact htexts text (List.mem_append_right _ htext) hrooted

theorem absolute_eq_absolute_iff_sample :
    let w : Workspace := { sourceDir := "/src", buildRoot := "/out/build" }
    let object := OutChain.derived (.ofSource "/src" "lib/foo.c") .extension "/o"
    let library := OutChain.derived (.derived (.out "lib/foo.c") .nest "x") .join "../../foo.o"
    (object.path (w.withHash "1A2B3C4D")).absolute ≠ (library.path (w.withHash "00000000")).absolute := by
  intro w object library
  exact (absolute_eq_absolute_iff w (by decide +kernel) (by decide +kernel) (by decide) object library).2 (by decide)

/-- The build path of a file elsewhere is the same under all hashes. -/
theorem build_paths_can_alias : ∃ (w : Workspace) (hash hash' : String) (chain chain' : OutChain), IsConfigHash hash ∧
    IsConfigHash hash' ∧ hash ≠ hash' ∧
    (chain.path (w.withHash hash)).absolute = (chain'.path (w.withHash hash')).absolute :=
  ⟨{ sourceDir := "/src", buildRoot := "/out/build" }, "0000000A", "0000000B",
    .derived (.ofElsewhere "/usr/src/x.c") .extension "o", .derived (.ofElsewhere "/usr/src/x.c") .extension "o",
    by decide +kernel, by decide +kernel, by decide, by decide +kernel⟩

end BuildPlan
