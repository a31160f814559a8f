import BuildPlan.Proofs.Package.Discovery
import BuildPlan.Proofs.Package.InStep

/-!
# The targets of a tree

`loadTargets` carries out the build files of a tree one after the other, and adds the targets of each to those of the
others. `runFiles` carries them out without adding anything up: what each of them leaves behind is a `Namespace`.
`loadTargets_discovers` says which build files there are, and that the targets are the public targets of all
namespaces, each under a name of its own.
-/

namespace BuildPlan

open Lexical (IsName)

variable {directory : Location} {variableName : String} {number : Nat}

/-! ### Names of targets -/

/-- The name of the target that a variable of the package in this directory stands for. -/
def targetKey (directory : Location) (variableName : String) : String :=
  if directory = [] then variableName else "/".intercalate directory ++ "/" ++ variableName

theorem toList_intercalate_slash (names : List String) :
    ("/".intercalate names).toList = ['/'].intercalate (names.map String.toList) := String.toList_intercalate

theorem targetKey_eq (directory : Location) (variableName : String) :
    targetKey directory variableName = "/".intercalate (directory ++ [variableName]) := by
  refine String.toList_inj.mp ?_
  rw [toList_intercalate_slash, List.map_append, List.map_singleton, targetKey]
  split
  case isTrue hroot =>
    rw [hroot, List.map_nil, List.nil_append, List.intercalate_singleton]
  case isFalse hroot =>
    rw [Lexical.intercalate_concat (by simpa using hroot), String.toList_append, String.toList_append,
      toList_intercalate_slash, List.append_assoc]
    rfl

theorem targetName_packageOf (hnames : ∀ name ∈ directory, IsName name.toList) (hslash : '/' ∉ variableName.toList)
    (sourceDir : String) :
    (packageOf sourceDir directory).targetName variableName = targetKey directory variableName := by
  have hparts : ∀ part ∈ directory.map String.toList, IsName part := by
    intro part hpart
    obtain ⟨name, hname, rfl⟩ := List.mem_map.mp hpart
    exact hnames name hname
  cases directory with
  | nil => rfl
  | cons first rest =>
    have hnil : ("/".intercalate (first :: rest)).toList ≠ [] := by
      intro hempty
      have hsplit := Lexical.shownParts_intercalate hparts
      rw [← toList_intercalate_slash, hempty] at hsplit
      cases hsplit
    have hne : "/".intercalate (first :: rest) ≠ "" := fun hempty => hnil (congrArg String.toList hempty)
    have hrelative : variableName.toList.head? ≠ some '/' := fun hhead => hslash (List.mem_of_mem_head? hhead)
    have hlast : ("/".intercalate (first :: rest)).toList.getLast? ≠ some '/' := by
      rw [toList_intercalate_slash]
      exact Lexical.getLast?_intercalate_ne hparts
    show (if "/".intercalate (first :: rest) = "" then _ else joinText ("/".intercalate (first :: rest)) _) = _
    rw [if_neg hne, targetKey, if_neg (List.cons_ne_nil _ _)]
    refine String.toList_inj.mp ?_
    rw [joinText, String.toList_ofList, Lexical.join, if_neg hrelative, if_neg (not_or.mpr ⟨hnil, hlast⟩),
      String.toList_append, String.toList_append, List.append_assoc]
    rfl

theorem targetKey_inj {directory' : Location} {variableName' : String}
    (hnames : ∀ name ∈ directory, IsName name.toList) (hslash : '/' ∉ variableName.toList)
    (hnames' : ∀ name ∈ directory', IsName name.toList) (hslash' : '/' ∉ variableName'.toList)
    (h : targetKey directory variableName = targetKey directory' variableName') :
    directory = directory' ∧ variableName = variableName' := by
  have hparts : ∀ {d : Location} {v : String}, (∀ name ∈ d, IsName name.toList) → '/' ∉ v.toList →
      Lexical.split (targetKey d v).toList = (d ++ [v]).map String.toList := by
    intro d v hd hv
    rw [targetKey_eq, toList_intercalate_slash]
    refine Lexical.split_intercalate (fun part hpart => ?_) (by simp)
    obtain ⟨name, hname, rfl⟩ := List.mem_map.mp hpart
    rcases List.mem_append.mp hname with hname | hname
    · exact (hd name hname).noSlash
    · rwa [List.mem_singleton.mp hname]
  have hsame := hparts hnames hslash
  rw [h, hparts hnames' hslash'] at hsame
  have hlists := congrArg (List.map String.ofList) hsame
  rw [map_ofList_toList, map_ofList_toList] at hlists
  obtain ⟨hdirectory, hvariable⟩ := List.append_inj' hlists rfl
  exact ⟨hdirectory.symm, (List.singleton_inj.mp hvariable).symm⟩

/-! ### What build files leave behind -/

namespace Namespace

variable {n : Namespace} {package : Package}

/-- The variable is public, and stands for a target of its own that is no module. -/
def Exports (n : Namespace) (variableName : String) (number : Nat) : Prop :=
  variableName.toList.head? ≠ some '_' ∧ Assoc.find? n.bindings variableName = some (some number) ∧
    ∃ entity, n.entities[number]? = some entity ∧ entity.isModule = false ∧ entity.isTarget = true

theorem Exports.mem_keys (h : n.Exports variableName number) : variableName ∈ Assoc.keys n.bindings :=
  Assoc.mem_keys_of_find? h.2.1

theorem target?_eq_some_iff {bound : Option Nat} {entry : String × Nat} :
    n.target? package variableName bound = some entry ↔
      entry.1 = package.targetName variableName ∧ bound = some entry.2 ∧ variableName.toList.head? ≠ some '_' ∧
        ∃ entity, n.entities[entry.2]? = some entity ∧ entity.isModule = false ∧ entity.isTarget = true := by
  constructor
  · intro h
    obtain ⟨number, rfl, hnumber⟩ := Option.bind_eq_some_iff.mp h
    obtain ⟨entity, hentity, hpublic⟩ := Option.bind_eq_some_iff.mp hnumber
    split at hpublic
    case isTrue hall =>
      cases hpublic
      exact ⟨rfl, rfl, hall.1, entity, hentity, Bool.eq_false_iff.mpr hall.2.1, hall.2.2⟩
    case isFalse => cases hpublic
  · rintro ⟨hname, rfl, hpublic, entity, hentity, hmodule, htarget⟩
    refine Option.bind_eq_some_iff.mpr ⟨entity, hentity, ?_⟩
    rw [if_pos ⟨hpublic, Bool.eq_false_iff.mp hmodule, htarget⟩, ← hname]

theorem mem_targets_iff (hkeys : (Assoc.keys n.bindings).Nodup) {entry : String × Nat} : entry ∈ n.targets package ↔
    ∃ variableName, n.Exports variableName entry.2 ∧ entry.1 = package.targetName variableName := by
  rw [targets, List.mem_filterMap]
  constructor
  · rintro ⟨⟨variableName, bound⟩, hbound, h⟩
    obtain ⟨hname, rfl, hpublic, hentity⟩ := target?_eq_some_iff.mp h
    exact ⟨variableName, ⟨hpublic, Assoc.find?_of_mem hbound hkeys, hentity⟩, hname⟩
  · rintro ⟨variableName, ⟨hpublic, hbound, hentity⟩, hname⟩
    refine ⟨(variableName, some entry.2), Assoc.mem_of_find? hbound, ?_⟩
    exact target?_eq_some_iff.mpr ⟨hname, rfl, hpublic, hentity⟩

theorem nodup_keys_targets (hkeys : (Assoc.keys n.bindings).Nodup)
    (hinj : ∀ v ∈ Assoc.keys n.bindings, ∀ v' ∈ Assoc.keys n.bindings,
      package.targetName v = package.targetName v' → v = v') : (Assoc.keys (n.targets package)).Nodup := by
  refine List.pairwise_map.mpr (List.pairwise_filterMap.mpr ?_)
  refine (List.pairwise_map.mp hkeys).imp_of_mem fun ha hb hne entry hentry other hother heq => hne ?_
  refine hinj _ (List.mem_map_of_mem ha) _ (List.mem_map_of_mem hb) ?_
  rw [← (target?_eq_some_iff.mp hentry).1, ← (target?_eq_some_iff.mp hother).1, heq]

end Namespace

namespace LoadState

variable {w : Workspace} {files : BuildFiles} {site : Site} {bindings bindings' : Bindings} {n : Namespace}
variable {namespaces : Assoc Location Namespace} {targets : Assoc String Nat} {s t : LoadState}

theorem nodup_keys_execute {definition : Definition} (h : execute site bindings definition s = .ok bindings' t)
    (hkeys : (Assoc.keys bindings).Nodup) : (Assoc.keys bindings').Nodup := by
  cases definition with
  | define variableName name thing =>
    obtain ⟨number, u, -, h⟩ := bind_eq_ok_iff.mp h
    cases h
    exact Assoc.nodup_keys_insert hkeys _ _
  | bind variableName name =>
    obtain ⟨names, u, -, h⟩ := bind_eq_ok_iff.mp h
    cases hresolve : names.resolve name with
    | ok number =>
      rw [hresolve] at h
      cases h
      exact Assoc.nodup_keys_insert hkeys _ _
    | error e =>
      rw [hresolve] at h
      cases h
  | register flag =>
    obtain ⟨_, u, -, h⟩ := bind_eq_ok_iff.mp h
    cases h
    exact hkeys
  | read flag =>
    obtain ⟨value, u, -, h⟩ := bind_eq_ok_iff.mp h
    cases h
    exact hkeys
  | fail failure => cases h

theorem nodup_keys_foldlM_execute {definitions : List Definition}
    (h : definitions.foldlM (execute site) bindings s = .ok bindings' t) (hkeys : (Assoc.keys bindings).Nodup) :
    (Assoc.keys bindings').Nodup := by
  induction definitions generalizing bindings s with
  | nil =>
    cases h
    exact hkeys
  | cons definition rest ih =>
    rw [List.foldlM_cons] at h
    obtain ⟨next, u, hfirst, hrest⟩ := bind_eq_ok_iff.mp h
    exact ih hrest (nodup_keys_execute hfirst hkeys)

theorem nodup_keys_runFile {file : String} {package : Package} {definitions : List Definition}
    (h : runFile w file package definitions s = .ok n t) : (Assoc.keys n.bindings).Nodup := by
  obtain ⟨bindings, u, hrun, h⟩ := bind_eq_ok_iff.mp h
  obtain ⟨entities, v, -, h⟩ := bind_eq_ok_iff.mp h
  cases h
  rw [ofFile_eq, mapError] at hrun
  split at hrun
  case h_1 b u' hfold =>
    cases hrun
    exact nodup_keys_foldlM_execute hfold (by decide)
  case h_2 => cases hrun

/-- The build file of the package in a directory is carried out. -/
def runPackage (w : Workspace) (files : BuildFiles) (directory : Location) : LoadM (Location × Namespace) := do
  let definitions := (Assoc.find? files (locate w.sourceDir ++ directory ++ [buildFileName])).getD []
  let package := packageOf w.sourceDir directory
  return (directory, ← runFile w (buildFile w.sourceDir directory) package definitions)

/-- The build files of a tree are carried out, and what they leave behind is kept apart. -/
def runFiles (w : Workspace) (files : BuildFiles) : LoadM (Assoc Location Namespace) := do
  (← currentPackages (locate w.sourceDir)).mapM (runPackage w files)

/-! ### Targets in the state -/

/-- The second state is the first one with other targets. -/
def Retargets (targets : Assoc String Nat) (s t : LoadState) : Prop := t = { s with targets }

theorem retargets_onRegistry {α : Type} (operation : RegistryM α) :
    InStep (.related (Retargets targets)) (onRegistry operation) := by
  rw [onRegistry_eq]
  refine InStep.zoom_related (Q := Eq) (fun h => by rw [h]) (fun h hr => by rw [h, hr]; rfl) ?_
  exact inStep_related_iff.mpr fun h => by rw [h]; exact ⟨rfl, rfl⟩

theorem partsInStep_retargets (targets : Assoc String Nat) : PartsInStep (.related (Retargets targets)) where
  names h := by rw [h]
  entities h := by rw [h]
  create _ _ _ := retargets_onRegistry _
  enter _ _ _ := .modify (fun _ => trivial) fun h => by rw [h]; rfl
  register _ _ _ := (retargets_onRegistry _).bind fun _ => .pure _
  read _ _ _ := (retargets_onRegistry _).bind fun value =>
    InStep.bind (.modify (fun _ => trivial) fun h => by rw [h]; rfl) fun _ => .pure _

theorem retargets_runPackage (w : Workspace) (files : BuildFiles) (directory : Location) :
    InStep (.related (Retargets targets)) (runPackage w files directory) :=
  ((partsInStep_retargets targets).runFile w _ _ _).bind fun _ => .pure _

theorem mapM_runPackage_cons {rest : List Location}
    (h : (directory :: rest).mapM (runPackage w files) s = .ok namespaces t) : ∃ n more u,
      runPackage w files directory s = .ok (directory, n) u ∧ (Assoc.keys n.bindings).Nodup ∧
        rest.mapM (runPackage w files) u = .ok more t ∧ namespaces = (directory, n) :: more := by
  rw [List.mapM_cons] at h
  obtain ⟨entry, u, hfirst, h⟩ := bind_eq_ok_iff.mp h
  obtain ⟨more, v, hrest, h⟩ := bind_eq_ok_iff.mp h
  obtain ⟨n, v', hrun, hentry⟩ := bind_eq_ok_iff.mp hfirst
  cases h
  cases hentry
  exact ⟨n, more, u, hfirst, nodup_keys_runFile hrun, hrest, rfl⟩

theorem mapM_runPackage {directories : List Location} (h : directories.mapM (runPackage w files) s = .ok namespaces t) :
    Assoc.keys namespaces = directories ∧
      ∀ directory n, (directory, n) ∈ namespaces → (Assoc.keys n.bindings).Nodup := by
  induction directories generalizing namespaces s with
  | nil =>
    cases h
    exact ⟨rfl, nofun⟩
  | cons directory rest ih =>
    obtain ⟨n, more, u, -, hbindings, hrest, rfl⟩ := mapM_runPackage_cons h
    obtain ⟨hkeys, hmore⟩ := ih hrest
    refine ⟨congrArg (directory :: ·) hkeys, fun other m hmem => ?_⟩
    rcases List.mem_cons.mp hmem with heq | hmem
    · cases heq
      exact hbindings
    · exact hmore other m hmem

/-- The targets of all packages. -/
def allTargets (sourceDir : String) (namespaces : Assoc Location Namespace) : Assoc String Nat :=
  namespaces.flatMap fun (directory, n) => n.targets (packageOf sourceDir directory)

theorem addPackage_of_runPackage (h : runPackage w files directory s = .ok (directory, n) t)
    (targets : Assoc String Nat) :
    addPackage w files directory { s with targets } =
      .ok () { t with targets := Assoc.insertAll targets (n.targets (packageOf w.sourceDir directory)) } := by
  obtain ⟨t', hrun, ht'⟩ := (retargets_runPackage w files directory).ok (s := s) (t := { s with targets }) rfl h trivial
  obtain ⟨m, u, hrun, hm⟩ := bind_eq_ok_iff.mp hrun
  cases hm
  refine bind_eq_ok_iff.mpr ⟨_, _, bind_eq_ok_iff.mpr ⟨n, t', hrun, rfl⟩, ?_⟩
  rw [ht']
  rfl

theorem forM_addPackage {directories : List Location} (h : directories.mapM (runPackage w files) s = .ok namespaces t)
    (targets : Assoc String Nat) :
    directories.forM (addPackage w files) { s with targets } =
      .ok () { t with targets := Assoc.insertAll targets (allTargets w.sourceDir namespaces) } := by
  induction directories generalizing namespaces s targets with
  | nil =>
    cases h
    rfl
  | cons directory rest ih =>
    obtain ⟨n, more, u, hfirst, -, hrest, rfl⟩ := mapM_runPackage_cons h
    refine bind_eq_ok_iff.mpr ⟨(), _, addPackage_of_runPackage hfirst targets, ?_⟩
    rw [ih hrest _, ← Assoc.insertAll_append]
    rfl

/-- The namespaces of the packages of a tree, with variables that are no paths. -/
structure OfTree (namespaces : Assoc Location Namespace) : Prop where
  nodup : (Assoc.keys namespaces).Nodup
  names : ∀ directory ∈ Assoc.keys namespaces, ∀ name ∈ directory, IsName name.toList
  bindings : ∀ directory n, (directory, n) ∈ namespaces → (Assoc.keys n.bindings).Nodup
  noSlash : ∀ directory n, (directory, n) ∈ namespaces → ∀ v ∈ Assoc.keys n.bindings, '/' ∉ v.toList

namespace OfTree

theorem targetName_eq (h : OfTree namespaces) (hmem : (directory, n) ∈ namespaces)
    (hv : variableName ∈ Assoc.keys n.bindings) (sourceDir : String) :
    (packageOf sourceDir directory).targetName variableName = targetKey directory variableName :=
  targetName_packageOf (h.names directory (List.mem_map_of_mem hmem)) (h.noSlash directory n hmem _ hv) sourceDir

theorem targetKey_inj (h : OfTree namespaces) {directory' : Location} {n' : Namespace} {variableName' : String}
    (hmem : (directory, n) ∈ namespaces) (hv : variableName ∈ Assoc.keys n.bindings)
    (hmem' : (directory', n') ∈ namespaces) (hv' : variableName' ∈ Assoc.keys n'.bindings)
    (hkey : targetKey directory variableName = targetKey directory' variableName') :
    directory = directory' ∧ variableName = variableName' :=
  BuildPlan.targetKey_inj (h.names directory (List.mem_map_of_mem hmem)) (h.noSlash directory n hmem _ hv)
    (h.names directory' (List.mem_map_of_mem hmem')) (h.noSlash directory' n' hmem' _ hv') hkey

theorem mem_allTargets_iff (h : OfTree namespaces) (sourceDir : String) {entry : String × Nat} :
    entry ∈ allTargets sourceDir namespaces ↔ ∃ directory n variableName, (directory, n) ∈ namespaces ∧
      n.Exports variableName entry.2 ∧ entry.1 = targetKey directory variableName := by
  rw [allTargets, List.mem_flatMap]
  constructor
  · rintro ⟨⟨directory, n⟩, hmem, hentry⟩
    obtain ⟨variableName, hexports, hname⟩ := (Namespace.mem_targets_iff (h.bindings directory n hmem)).mp hentry
    rw [h.targetName_eq hmem hexports.mem_keys] at hname
    exact ⟨directory, n, variableName, hmem, hexports, hname⟩
  · rintro ⟨directory, n, variableName, hmem, hexports, hname⟩
    rw [← h.targetName_eq hmem hexports.mem_keys sourceDir] at hname
    exact ⟨(directory, n), hmem, (Namespace.mem_targets_iff (h.bindings directory n hmem)).mpr ⟨_, hexports, hname⟩⟩

/-- No two targets of a tree have the same name. -/
theorem nodup_keys_allTargets (h : OfTree namespaces) (sourceDir : String) :
    (Assoc.keys (allTargets sourceDir namespaces)).Nodup := by
  rw [Assoc.keys, allTargets, List.map_flatMap]
  -- first within a package, then between packages
  refine List.nodup_flatMap.mpr ⟨fun entry hmem => ?_, ?_⟩
  · refine Namespace.nodup_keys_targets (h.bindings _ _ hmem) fun v hv v' hv' heq => ?_
    rw [h.targetName_eq hmem hv, h.targetName_eq hmem hv'] at heq
    exact (h.targetKey_inj hmem hv hmem hv' heq).2
  · refine (List.pairwise_map.mp h.nodup).imp_of_mem fun {a b} ha hb hne name hname hname' => hne ?_
    obtain ⟨entry, hentry, rfl⟩ := List.mem_map.mp hname
    obtain ⟨other, hother, heq⟩ := List.mem_map.mp hname'
    obtain ⟨v, hexports, hentry⟩ := (Namespace.mem_targets_iff (h.bindings _ _ ha)).mp hentry
    obtain ⟨v', hexports', hother⟩ := (Namespace.mem_targets_iff (h.bindings _ _ hb)).mp hother
    rw [hentry, hother, h.targetName_eq ha hexports.mem_keys, h.targetName_eq hb hexports'.mem_keys] at heq
    exact (h.targetKey_inj hb hexports'.mem_keys ha hexports.mem_keys heq).1.symm

end OfTree

theorem runFiles_ok (hs : s.store.IsTree) (h : runFiles w files s = .ok namespaces t)
    (hslash : ∀ directory n, (directory, n) ∈ namespaces → ∀ v ∈ Assoc.keys n.bindings, '/' ∉ v.toList) :
    Assoc.keys namespaces = buildDirectories s.store (locate w.sourceDir) ∧ OfTree namespaces := by
  obtain ⟨directories, u, hdirectories, hrun⟩ := bind_eq_ok_iff.mp h
  cases hdirectories
  obtain ⟨hkeys, hbindings⟩ := mapM_runPackage hrun
  refine ⟨hkeys, ?nodup, ?names, hbindings, hslash⟩
  case nodup =>
    rw [hkeys]
    exact nodup_buildDirectories hs _
  case names =>
    rw [hkeys]
    exact fun directory hmem => isName_of_mem_buildDirectories hs hmem

/-- The targets that are loaded are those of all namespaces. -/
theorem loadTargets_of_runFiles (h : runFiles w files s = .ok namespaces t) (hstart : s.targets = [])
    (hkeys : (Assoc.keys (allTargets w.sourceDir namespaces)).Nodup) :
    loadTargets w files s = .ok () { t with targets := allTargets w.sourceDir namespaces } := by
  obtain ⟨directories, u, hdirectories, hrun⟩ := bind_eq_ok_iff.mp h
  cases hdirectories
  have hload : loadTargets w files s = _ := forM_addPackage hrun s.targets
  rwa [hstart, ← Assoc.ofList, Assoc.ofList_eq_self hkeys] at hload

/-- The build files of a tree are found once each, in ascending order, except for those in or below hidden
directories: a walk of the tree from the top down meets the same ones. If all of them can be carried out, every public
variable of theirs that stands for a target of its own gives one target, and the names of the targets tell them apart. -/
theorem loadTargets_discovers (w : Workspace) (files : BuildFiles) (s : LoadState) (hs : s.store.IsTree)
    (hstart : s.targets = []) :
    (findBuildFiles s.store w.sourceDir).Pairwise (fun a b => List.Lex (· < ·) (pathParts a) (pathParts b)) ∧
      ((findBuildFiles s.store w.sourceDir).map locate).Nodup ∧
      (∀ place, place ∈ (findBuildFiles s.store w.sourceDir).map locate ↔ ∃ directory text mode,
        place = locate w.sourceDir ++ directory ++ ["BUILD.py"] ∧ s.store.find? place = some (.file text mode) ∧
          ∀ name ∈ directory, name.toList.head? ≠ some '.' ∧ name ≠ "__pycache__") ∧
      (∀ depth, (∀ place ∈ Assoc.keys s.store.entries, place.length ≤ depth) → findBuildFiles s.store w.sourceDir =
        (Text.sortBy precedes (s.store.walk (locate w.sourceDir) depth [])).map (buildFile w.sourceDir)) ∧
      ∀ namespaces t, runFiles w files s = .ok namespaces t →
        (∀ directory n, (directory, n) ∈ namespaces → ∀ v ∈ Assoc.keys n.bindings, '/' ∉ v.toList) →
        findBuildFiles s.store w.sourceDir = (Assoc.keys namespaces).map (buildFile w.sourceDir) ∧
          ∃ targets, loadTargets w files s = .ok () { t with targets } ∧ (Assoc.keys targets).Nodup ∧
            (∀ name number, (name, number) ∈ targets ↔ ∃ directory n variableName, (directory, n) ∈ namespaces ∧
              n.Exports variableName number ∧ name = targetKey directory variableName) ∧
            ∀ directory n v number directory' n' v' number', (directory, n) ∈ namespaces → n.Exports v number →
              (directory', n') ∈ namespaces → n'.Exports v' number' →
              targetKey directory v = targetKey directory' v' → directory = directory' ∧ v = v' := by
  refine ⟨pairwise_findBuildFiles hs _, nodup_map_locate_findBuildFiles hs _, fun place => ?_,
    fun depth hdepth => ?_, fun namespaces t hrun hslash => ?_⟩
  · simp only [← isVisible_iff]
    exact mem_map_locate_findBuildFiles_iff hs w.sourceDir
  · rw [findBuildFiles, buildDirectories_eq_walk hs hdepth]
  · obtain ⟨hkeys, htree⟩ := runFiles_ok hs hrun hslash
    have hnodup := htree.nodup_keys_allTargets w.sourceDir
    refine ⟨by rw [hkeys, findBuildFiles], allTargets w.sourceDir namespaces,
      loadTargets_of_runFiles hrun hstart hnodup, hnodup, fun name number => htree.mem_allTargets_iff w.sourceDir, ?_⟩
    intro directory n v number directory' n' v' number' hmem hexports hmem' hexports' hkey
    exact htree.targetKey_inj hmem hexports.mem_keys hmem' hexports'.mem_keys hkey

/-! ### A tree -/

/-- A source tree with two packages and a hidden directory. -/
def smallTree : Store :=
  { entries := [
      (["src"], .directory), (["src", "lib"], .directory), (["src", ".git"], .directory),
      (["src", "lib", "BUILD.py"], .file "" plainMode), (["src", ".git", "BUILD.py"], .file "" plainMode),
      (["src", "BUILD.py"], .file "" plainMode)] }

/-- The build files of the tree. In that of `lib` a private variable, a value and a module stand beside a target. -/
def smallFiles : BuildFiles :=
  [(["src", "BUILD.py"], [.define "All" "All" (.group [])]),
    (["src", "lib", "BUILD.py"], [
      .define "_part" "_part" (.group []), .define "version" "version" .inert,
      .define "tools" "tools" (.custom { isModule := true }), .define "Lib" "Lib" (.group ["_part"])])]

/-- A run on the tree. -/
def smallWorkspace : Workspace := { sourceDir := "/src", buildRoot := "/out/build" }

theorem isTree_smallTree : smallTree.IsTree where
  nodup := by decide
  names := by
    have hnames : ∀ place ∈ Assoc.keys smallTree.entries, ∀ name ∈ place,
        '/' ∉ name.toList ∧ name.toList ≠ [] ∧ name.toList ≠ ['.'] ∧ name.toList ≠ ['.', '.'] := by decide
    intro place hplace name hname
    obtain ⟨hslash, hnil, hdot, hdots⟩ := hnames place hplace name hname
    exact ⟨hslash, hnil, hdot, hdots⟩
  wellFormed := Store.wellFormed_of_entries (by decide)

/-- The build files have been carried out, and no variable in them is a path. -/
def endsWell : EStateM.Result Failure LoadState (Assoc Location Namespace) → Bool
  | .ok namespaces _ => namespaces.all fun (_, n) => (Assoc.keys n.bindings).all fun v => !v.toList.contains '/'
  | .error _ _ => false

/-- The names of the targets that have been loaded. -/
def loadedNames : EStateM.Result Failure LoadState Unit → List String
  | .ok _ s => Assoc.keys s.targets
  | .error _ _ => []

theorem loadTargets_discovers_sample : ∃ namespaces t targets,
    runFiles smallWorkspace smallFiles { store := smallTree } = .ok namespaces t ∧
      (Assoc.keys namespaces).map (buildFile "/src") = ["/src/BUILD.py", "/src/lib/BUILD.py"] ∧
      loadTargets smallWorkspace smallFiles { store := smallTree } = .ok () { t with targets } ∧
      Assoc.keys targets = ["All", "lib/Lib"] := by
  have hends : endsWell (runFiles smallWorkspace smallFiles { store := smallTree }) = true := by decide +kernel
  have hnames : loadedNames (loadTargets smallWorkspace smallFiles { store := smallTree }) = ["All", "lib/Lib"] := by
    decide +kernel
  have hfound : findBuildFiles smallTree "/src" = ["/src/BUILD.py", "/src/lib/BUILD.py"] := by decide +kernel
  cases hrun : runFiles smallWorkspace smallFiles { store := smallTree } with
  | error e s =>
    rw [hrun] at hends
    cases hends
  | ok namespaces t =>
    rw [hrun] at hends
    have hslash : ∀ directory n, (directory, n) ∈ namespaces → ∀ v ∈ Assoc.keys n.bindings, '/' ∉ v.toList := by
      intro directory n hmem v hv
      simpa using List.all_eq_true.mp (List.all_eq_true.mp hends (directory, n) hmem) v hv
    have hstart : ({ store := smallTree } : LoadState).targets = [] := rfl
    obtain ⟨-, -, -, -, hload⟩ := loadTargets_discovers smallWorkspace smallFiles _ isTree_smallTree hstart
    obtain ⟨hkeys, targets, htargets, -⟩ := hload namespaces t hrun hslash
    rw [htargets] at hnames
    exact ⟨namespaces, t, targets, rfl, hkeys.symm.trans hfound, htargets, hnames⟩

end LoadState

end BuildPlan
