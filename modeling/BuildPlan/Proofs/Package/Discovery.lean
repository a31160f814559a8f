import BuildPlan.Package.Discovery
import BuildPlan.Proofs.Path.Layout
import BuildPlan.Proofs.Store.Directories
import Mathlib.Data.List.Nodup

/-!
# The build files of a tree

`buildDirectories` picks the packages out of a store. In a store that is a directory tree it finds each build file
once that has no hidden directory above it, and `findBuildFiles` gives their paths in ascending order. A walk of the
tree from the top down, which leaves hidden directories out, meets the same packages (`buildDirectories_eq_walk`).
-/

namespace BuildPlan

open Lexical (IsName)

/-- The parts of a path, as it is shown. -/
def pathParts (path : String) : List String := (Lexical.shownParts path.toList).map String.ofList

/-- A directory tree: each place is there once, by names that stand for themselves, and lies in directories. -/
structure Store.IsTree (s : Store) : Prop where
  nodup : (Assoc.keys s.entries).Nodup
  names : ∀ place ∈ Assoc.keys s.entries, ∀ name ∈ place, IsName name.toList
  wellFormed : s.WellFormed

variable {s : Store} {root place directory : Location} {node : Node}

/-! ### The packages of a tree -/

theorem isVisible_iff {name : String} : isVisible name ↔ name.toList.head? ≠ some '.' ∧ name ≠ "__pycache__" := by
  rw [isVisible, Bool.and_eq_true, decide_eq_true_eq, decide_eq_true_eq]

theorem packageAt?_eq_some_iff : packageAt? root place node = some directory ↔
    place = root ++ directory ++ [buildFileName] ∧ (∃ text mode, node = .file text mode) ∧
      ∀ name ∈ directory, isVisible name := by
  cases node with
  | directory => exact iff_of_false nofun fun ⟨_, ⟨_, _, h⟩, _⟩ => nomatch h
  | file text mode =>
    have hinner : ∀ d, ((root ++ d ++ [buildFileName]).drop root.length).dropLast = d := by simp
    rw [packageAt?]
    constructor
    · intro h
      split at h
      case isTrue hplace =>
        cases h
        exact ⟨hplace.1, ⟨text, mode, rfl⟩, List.all_eq_true.mp hplace.2⟩
      case isFalse => cases h
    · rintro ⟨rfl, -, hvisible⟩
      rw [hinner]
      exact if_pos ⟨rfl, List.all_eq_true.mpr hvisible⟩

theorem mem_buildDirectories_iff (hs : s.IsTree) : directory ∈ buildDirectories s root ↔
    (∃ text mode, s.find? (root ++ directory ++ [buildFileName]) = some (.file text mode)) ∧
      ∀ name ∈ directory, isVisible name := by
  have hfind : s.find? (root ++ directory ++ [buildFileName]) =
      Assoc.find? s.entries (root ++ directory ++ [buildFileName]) := if_neg (List.concat_ne_nil _ _)
  rw [buildDirectories, (Text.sortBy_perm _ _).mem_iff, List.mem_filterMap, hfind]
  constructor
  · rintro ⟨⟨place, node⟩, hentry, hpackage⟩
    obtain ⟨rfl, ⟨text, mode, rfl⟩, hvisible⟩ := packageAt?_eq_some_iff.mp hpackage
    exact ⟨⟨text, mode, Assoc.find?_of_mem hentry hs.nodup⟩, hvisible⟩
  · rintro ⟨⟨text, mode, hentry⟩, hvisible⟩
    exact ⟨_, Assoc.mem_of_find? hentry, packageAt?_eq_some_iff.mpr ⟨rfl, ⟨text, mode, rfl⟩, hvisible⟩⟩

theorem nodup_buildDirectories (hs : s.IsTree) (root : Location) : (buildDirectories s root).Nodup := by
  refine (Text.sortBy_perm _ _).nodup_iff.mpr (List.pairwise_filterMap.mpr ?_)
  refine (List.pairwise_map.mp hs.nodup).imp fun hne d hd e he hde => hne ?_
  rw [(packageAt?_eq_some_iff.mp hd).1, (packageAt?_eq_some_iff.mp he).1, hde]

theorem isName_of_mem_buildDirectories (hs : s.IsTree) (h : directory ∈ buildDirectories s root) :
    ∀ name ∈ directory, IsName name.toList := by
  obtain ⟨⟨text, mode, hfile⟩, -⟩ := (mem_buildDirectories_iff hs).mp h
  rw [Store.find?, if_neg (List.concat_ne_nil _ _)] at hfile
  refine fun name hname => hs.names _ (Assoc.mem_keys_of_find? hfile) name ?_
  exact List.mem_append_left _ (List.mem_append_right _ hname)

/-! ### Their order -/

theorem precedes_iff {a b : Location} :
    precedes a b ↔ ¬List.Lex (· < ·) (b ++ [buildFileName]) (a ++ [buildFileName]) := Text.isAtMost_iff

theorem precedes_total (a b : Location) : precedes a b ∨ precedes b a := by
  rw [precedes_iff, precedes_iff]
  exact List.le_total (a ++ [buildFileName]) (b ++ [buildFileName])

theorem precedes_trans (a b c : Location) (hab : precedes a b) (hbc : precedes b c) : precedes a c := by
  rw [precedes_iff] at hab hbc ⊢
  exact List.le_trans hab hbc

theorem precedes_antisymm {a b : Location} (hab : precedes a b) (hba : precedes b a) : a = b := by
  rw [precedes_iff] at hab hba
  exact List.append_cancel_right (List.le_antisymm hab hba)

theorem pairwise_buildDirectories (hs : s.IsTree) (root : Location) :
    (buildDirectories s root).Pairwise fun a b => List.Lex (· < ·) (a ++ [buildFileName]) (b ++ [buildFileName]) := by
  have hsorted : (buildDirectories s root).Pairwise fun a b => precedes a b :=
    Text.pairwise_sortBy precedes_total precedes_trans _
  refine (hsorted.and (nodup_buildDirectories hs root)).imp fun hab => ?_
  exact Classical.byContradiction fun hnot => hab.2 (precedes_antisymm hab.1 (precedes_iff.mpr hnot))

/-! ### Their paths -/

theorem isName_buildFileName : IsName buildFileName.toList := ⟨by decide, by decide, by decide, by decide⟩

theorem isName_of_mem_inner (h : ∀ name ∈ directory, IsName name.toList) :
    ∀ part ∈ (directory ++ [buildFileName]).map String.toList, IsName part := by
  intro part hpart
  obtain ⟨name, hname, rfl⟩ := List.mem_map.mp hpart
  rcases List.mem_append.mp hname with hname | hname
  · exact h name hname
  · rw [List.mem_singleton.mp hname]
    exact isName_buildFileName

theorem shownParts_buildFile (h : ∀ name ∈ directory, IsName name.toList) (sourceDir : String) :
    Lexical.shownParts (buildFile sourceDir directory).toList =
      Lexical.shownParts sourceDir.toList ++ (directory ++ [buildFileName]).map String.toList := by
  have hnames := isName_of_mem_inner h
  rw [buildFile, tidyText, String.toList_ofList, Lexical.shownParts_tidy, joinText, String.toList_ofList,
    String.toList_intercalate]
  change Lexical.shownParts (Lexical.join _ (['/'].intercalate _)) = _
  rw [Lexical.shownParts_join (Lexical.head?_intercalate_ne hnames), Lexical.shownParts_intercalate hnames]

theorem map_ofList_toList (names : List String) : (names.map String.toList).map String.ofList = names := by
  simp only [List.map_map, Function.comp_def, String.ofList_toList, List.map_id']

theorem pathParts_buildFile (h : ∀ name ∈ directory, IsName name.toList) (sourceDir : String) :
    pathParts (buildFile sourceDir directory) = pathParts sourceDir ++ (directory ++ [buildFileName]) := by
  rw [pathParts, shownParts_buildFile h, List.map_append, map_ofList_toList]
  rfl

theorem locate_buildFile (h : ∀ name ∈ directory, IsName name.toList) (sourceDir : String) :
    locate (buildFile sourceDir directory) = locate sourceDir ++ directory ++ [buildFileName] := by
  rw [locate, Lexical.components_eq, shownParts_buildFile h, List.foldl_append,
    Lexical.foldl_push_names (isName_of_mem_inner h), List.reverse_append, List.reverse_reverse, List.map_append,
    map_ofList_toList, ← Lexical.components_eq, List.append_assoc]
  rfl

/-- The paths of the build files ascend strictly, part by part. -/
theorem pairwise_findBuildFiles (hs : s.IsTree) (sourceDir : String) :
    (findBuildFiles s sourceDir).Pairwise fun a b => List.Lex (· < ·) (pathParts a) (pathParts b) := by
  rw [findBuildFiles, List.pairwise_map]
  refine (pairwise_buildDirectories hs (locate sourceDir)).imp_of_mem fun {a b} ha hb hlt => ?_
  rw [pathParts_buildFile (isName_of_mem_buildDirectories hs ha),
    pathParts_buildFile (isName_of_mem_buildDirectories hs hb)]
  exact List.append_left_lt hlt

theorem map_locate_findBuildFiles (hs : s.IsTree) (sourceDir : String) : (findBuildFiles s sourceDir).map locate =
    (buildDirectories s (locate sourceDir)).map fun directory =>
      locate sourceDir ++ directory ++ [buildFileName] := by
  rw [findBuildFiles, List.map_map]
  refine List.map_congr_left fun directory h => ?_
  rw [Function.comp_apply, locate_buildFile (isName_of_mem_buildDirectories hs h)]

theorem nodup_map_locate_findBuildFiles (hs : s.IsTree) (sourceDir : String) :
    ((findBuildFiles s sourceDir).map locate).Nodup := by
  rw [map_locate_findBuildFiles hs]
  refine (nodup_buildDirectories hs _).map fun a b h => ?_
  exact List.append_cancel_left (List.append_cancel_right h)

theorem mem_map_locate_findBuildFiles_iff (hs : s.IsTree) (sourceDir : String) :
    place ∈ (findBuildFiles s sourceDir).map locate ↔ ∃ directory text mode,
      place = locate sourceDir ++ directory ++ [buildFileName] ∧ s.find? place = some (.file text mode) ∧
        ∀ name ∈ directory, isVisible name := by
  rw [map_locate_findBuildFiles hs, List.mem_map]
  constructor
  · rintro ⟨directory, hmem, rfl⟩
    obtain ⟨⟨text, mode, hfile⟩, hvisible⟩ := (mem_buildDirectories_iff hs).mp hmem
    exact ⟨directory, text, mode, rfl, hfile, hvisible⟩
  · rintro ⟨directory, text, mode, rfl, hfile, hvisible⟩
    exact ⟨directory, (mem_buildDirectories_iff hs).mpr ⟨⟨text, mode, hfile⟩, hvisible⟩, rfl⟩

/-! ### The walk -/

namespace Store

variable {name : String} {depth : Nat} {start : Location}

/-- The name of a place if it is a directory in this directory and a walk goes on there. -/
def subdirectoryAt? (directory place : Location) (node : Node) : Option String :=
  match node with
  | .file _ _ => none
  | .directory =>
    let name := place.getLastD ""
    if place = directory ++ [name] ∧ isVisible name then some name else none

/-- The directories in a directory where a walk goes on, in ascending order. -/
def subdirectories (s : Store) (directory : Location) : List String :=
  Text.sortTexts (s.entries.filterMap fun (place, node) => subdirectoryAt? directory place node)

/-- There is a file at the place. -/
def isFile (s : Store) (place : Location) : Bool :=
  match s.find? place with
  | some (.file _ _) => true
  | _ => false

/-- The packages that a walk meets from a directory on, top down, if it goes down less than `depth` times. -/
def walk (s : Store) (root : Location) : Nat → Location → List Location
  | 0, _ => []
  | depth + 1, directory =>
    (if s.isFile (root ++ directory ++ [buildFileName]) then [directory] else []) ++
      (s.subdirectories (root ++ directory)).flatMap fun name => walk s root depth (directory ++ [name])

theorem isFile_iff : s.isFile place ↔ ∃ text mode, s.find? place = some (.file text mode) := by
  unfold isFile
  split
  case h_1 text mode h => exact iff_of_true rfl ⟨text, mode, h⟩
  case h_2 hnot => exact iff_of_false nofun fun ⟨text, mode, h⟩ => hnot text mode h

theorem subdirectoryAt?_eq_some_iff : subdirectoryAt? directory place node = some name ↔
    place = directory ++ [name] ∧ node = .directory ∧ isVisible name := by
  cases node with
  | file text mode => exact iff_of_false nofun fun h => nomatch h.2.1
  | directory =>
    rw [subdirectoryAt?]
    constructor
    · intro h
      split at h
      case isTrue hplace =>
        cases h
        exact ⟨hplace.1, rfl, hplace.2⟩
      case isFalse => cases h
    · rintro ⟨rfl, -, hvisible⟩
      rw [List.getLastD_concat]
      exact if_pos ⟨rfl, hvisible⟩

theorem mem_subdirectories_iff (hs : s.IsTree) :
    name ∈ s.subdirectories directory ↔ s.find? (directory ++ [name]) = some .directory ∧ isVisible name := by
  have hfind : s.find? (directory ++ [name]) = Assoc.find? s.entries (directory ++ [name]) :=
    if_neg (List.concat_ne_nil _ _)
  rw [subdirectories, Text.sortTexts, Text.mem_sortOn, List.mem_filterMap, hfind]
  constructor
  · rintro ⟨⟨place, node⟩, hentry, hname⟩
    obtain ⟨rfl, rfl, hvisible⟩ := subdirectoryAt?_eq_some_iff.mp hname
    exact ⟨Assoc.find?_of_mem hentry hs.nodup, hvisible⟩
  · rintro ⟨hentry, hvisible⟩
    exact ⟨_, Assoc.mem_of_find? hentry, subdirectoryAt?_eq_some_iff.mpr ⟨rfl, rfl, hvisible⟩⟩

theorem nodup_subdirectories (hs : s.IsTree) (directory : Location) : (s.subdirectories directory).Nodup := by
  refine (Text.sortOn_perm id _).nodup_iff.mpr (List.pairwise_filterMap.mpr ?_)
  refine (List.pairwise_map.mp hs.nodup).imp fun hne a ha b hb hab => hne ?_
  rw [(subdirectoryAt?_eq_some_iff.mp ha).1, (subdirectoryAt?_eq_some_iff.mp hb).1, hab]

theorem IsTree.find?_above_file (hs : s.IsTree) {rest : Location} (hfile : s.isFile (place ++ rest)) (hne : rest ≠ []) :
    s.find? place = some .directory := by
  obtain ⟨text, mode, hfile⟩ := isFile_iff.mp hfile
  refine hs.wellFormed _ (Option.isSome_of_eq_some hfile) place (mem_ancestors_iff.mpr ⟨List.prefix_append _ _, ?_⟩)
  exact fun heq => hne (List.append_right_eq_self.mp heq.symm)

/-- A walk meets the packages whose directories are not hidden from where it starts, as deep as it goes. -/
theorem mem_walk_iff (hs : s.IsTree) : directory ∈ s.walk root depth start ↔
    ∃ rest, directory = start ++ rest ∧ rest.length < depth ∧ s.isFile (root ++ directory ++ [buildFileName]) ∧
      ∀ name ∈ rest, isVisible name := by
  induction depth generalizing start with
  | zero => exact iff_of_false List.not_mem_nil fun ⟨_, _, h, _⟩ => nomatch h
  | succ depth ih =>
    rw [walk, List.mem_append, List.mem_flatMap]
    constructor
    · rintro (hhere | ⟨name, hname, hbelow⟩)
      · split at hhere
        case isTrue hfile =>
          rw [List.mem_singleton.mp hhere]
          exact ⟨[], (List.append_nil start).symm, Nat.succ_pos depth, hfile, List.forall_mem_nil _⟩
        case isFalse => cases hhere
      · obtain ⟨rest, rfl, hlength, hfile, hvisible⟩ := ih.mp hbelow
        refine ⟨name :: rest, by rw [List.append_assoc, List.singleton_append], Nat.succ_lt_succ hlength, hfile, ?_⟩
        exact List.forall_mem_cons.mpr ⟨((mem_subdirectories_iff hs).mp hname).2, hvisible⟩
    · rintro ⟨rest, rfl, hlength, hfile, hvisible⟩
      cases rest with
      | nil =>
        rw [List.append_nil] at hfile ⊢
        exact .inl (by rw [if_pos hfile]; exact List.mem_singleton_self start)
      | cons name rest =>
        -- the walk goes on at the first name, which is a directory because a file lies below it
        obtain ⟨hname, hrest⟩ := List.forall_mem_cons.mp hvisible
        have hsplit : root ++ (start ++ name :: rest) ++ [buildFileName] =
            root ++ start ++ [name] ++ (rest ++ [buildFileName]) := by simp
        have hdirectory := hs.find?_above_file (hsplit ▸ hfile) (List.concat_ne_nil _ _)
        refine .inr ⟨name, (mem_subdirectories_iff hs).mpr ⟨hdirectory, hname⟩, ih.mpr ⟨rest, ?_⟩⟩
        exact ⟨by rw [List.append_assoc, List.singleton_append], Nat.lt_of_succ_lt_succ hlength, hfile, hrest⟩

theorem nodup_walk (hs : s.IsTree) (root : Location) (depth : Nat) (start : Location) :
    (s.walk root depth start).Nodup := by
  induction depth generalizing start with
  | zero => exact List.nodup_nil
  | succ depth ih =>
    rw [walk]
    refine List.nodup_append.mpr ⟨?_, List.nodup_flatMap.mpr ⟨fun name _ => ih _, ?_⟩, ?_⟩
    · split
      · exact List.nodup_singleton start
      · exact List.nodup_nil
    · -- what is met below different names differs in these names
      refine (nodup_subdirectories hs _).imp fun {a b} hab directory ha hb => hab ?_
      obtain ⟨rest, hrest, -⟩ := (mem_walk_iff hs).mp ha
      obtain ⟨rest', hrest', -⟩ := (mem_walk_iff hs).mp hb
      rw [hrest, List.append_assoc, List.append_assoc] at hrest'
      exact (List.cons.inj (List.append_cancel_left hrest')).1
    · intro here hhere below hbelow heq
      split at hhere
      case isTrue =>
        obtain ⟨name, -, hbelow⟩ := List.mem_flatMap.mp hbelow
        obtain ⟨rest, hrest, -⟩ := (mem_walk_iff hs).mp hbelow
        rw [← heq, List.mem_singleton.mp hhere, List.append_assoc] at hrest
        exact List.cons_ne_nil _ _ (List.append_right_eq_self.mp hrest.symm)
      case isFalse => cases hhere

end Store

/-- The packages of a tree are those that a walk of the whole of it meets, sorted. -/
theorem buildDirectories_eq_walk (hs : s.IsTree) {depth : Nat}
    (hdepth : ∀ place ∈ Assoc.keys s.entries, place.length ≤ depth) (root : Location) :
    buildDirectories s root = Text.sortBy precedes (s.walk root depth []) := by
  have hmem : ∀ directory, directory ∈ buildDirectories s root ↔ directory ∈ s.walk root depth [] := by
    intro directory
    rw [mem_buildDirectories_iff hs, Store.mem_walk_iff hs, ← Store.isFile_iff]
    constructor
    · rintro ⟨hfile, hvisible⟩
      obtain ⟨text, mode, hentry⟩ := Store.isFile_iff.mp hfile
      rw [Store.find?, if_neg (List.concat_ne_nil _ _)] at hentry
      have hlength := hdepth _ (Assoc.mem_keys_of_find? hentry)
      rw [List.length_append, List.length_append, List.length_singleton] at hlength
      exact ⟨directory, rfl, by omega, hfile, hvisible⟩
    · rintro ⟨rest, rfl, -, hfile, hvisible⟩
      exact ⟨hfile, hvisible⟩
  have hperm : (buildDirectories s root).Perm (Text.sortBy precedes (s.walk root depth [])) :=
    ((List.perm_ext_iff_of_nodup (nodup_buildDirectories hs root) (Store.nodup_walk hs root depth [])).mpr hmem).trans
      (Text.sortBy_perm _ _).symm
  exact hperm.eq_of_pairwise (fun _ _ _ _ => precedes_antisymm) (Text.pairwise_sortBy precedes_total precedes_trans _)
    (Text.pairwise_sortBy precedes_total precedes_trans _)

end BuildPlan
