import BuildPlan.Package.Discovery
import BuildPlan.Proofs.State.Keeps

/-!
# How stores grow

File operations put things at places. `Store.Grows` says that one store arises from another one in this way while the
packages of every source tree stay the same: directories come only where nothing was, and the files that are written
are no build files.
-/

namespace BuildPlan

namespace Assoc

variable {κ β γ : Type} [DecidableEq κ]

theorem filterMap_insert {f : κ × β → Option γ} {t : Assoc κ β} {key : κ} {value : β} (hnew : f (key, value) = none)
    (hold : ∀ old, find? t key = some old → f (key, old) = none) :
    (insert t key value).filterMap f = t.filterMap f := by
  induction t with
  | nil => rw [insert, List.filterMap_cons_none hnew]
  | cons entry rest ih =>
    obtain ⟨name, old⟩ := entry
    by_cases hname : name = key
    · have hnone : f (name, old) = none := by
        rw [hname]
        exact hold old (if_pos hname)
      rw [insert, if_pos hname, List.filterMap_cons_none hnew, List.filterMap_cons_none hnone]
    · have hrest := ih fun other hother => hold other ((if_neg hname).trans hother)
      rw [insert, if_neg hname, List.filterMap_cons, List.filterMap_cons, hrest]

end Assoc

namespace Store

variable {s t : Store} {place : Location} {name : String} {node : Node}

/-! ### The places above a place -/

/-- The places above a place are directories. -/
def Reaches (s : Store) (place : Location) : Prop := ∀ above ∈ ancestors place, s.find? above = some .directory

theorem ancestors_concat (place : Location) (name : String) :
    ancestors (place ++ [name]) = ancestors place ++ [place] := by
  have hall : ∀ n ∈ List.range place.length, (place ++ [name]).take n = place.take n := fun n hn =>
    List.take_append_of_le_length (Nat.le_of_lt (List.mem_range.mp hn))
  rw [ancestors, List.length_append, List.length_singleton, List.range_succ, List.map_append, List.map_congr_left hall,
    List.map_singleton, List.take_left]
  rfl

theorem reaches_concat_iff : s.Reaches (place ++ [name]) ↔ s.Reaches place ∧ s.find? place = some .directory := by
  rw [Reaches, ancestors_concat, List.forall_mem_append, List.forall_mem_singleton]
  rfl

theorem length_lt_of_mem_ancestors {above : Location} (h : above ∈ ancestors place) : above.length < place.length := by
  obtain ⟨n, hn, rfl⟩ := List.mem_map.mp h
  exact Nat.lt_of_le_of_lt (List.length_take_le n place) (List.mem_range.mp hn)

/-! ### Packages -/

theorem packageAt?_concat (h : name ≠ buildFileName) (root place : Location) (node : Node) :
    packageAt? root (place ++ [name]) node = none := by
  cases node with
  | directory => rfl
  | file text mode =>
    refine if_neg fun hplace => h ?_
    exact List.singleton_inj.mp (List.append_inj_right' hplace.1 rfl)

theorem buildDirectories_put (root : Location) (hnew : packageAt? root place node = none)
    (hold : ∀ old, s.find? place = some old → packageAt? root place old = none) (hplace : place ≠ []) :
    buildDirectories (s.put place node) root = buildDirectories s root := by
  rw [buildDirectories, buildDirectories, put]
  refine congrArg _ (Assoc.filterMap_insert hnew fun old h => hold old ?_)
  rw [find?, if_neg hplace, h]

/-! ### Growth -/

/-- The second store arises from the first one when things are put at places, and no package comes or goes. -/
structure Grows (s t : Store) : Prop where
  refuses : t.refuses = s.refuses
  puts : ∃ entries, t.entries = Assoc.insertAll s.entries entries ∧ [] ∉ Assoc.keys entries
  packages : ∀ root, buildDirectories t root = buildDirectories s root

theorem Grows.lasting : Lasting Grows where
  refl s := ⟨rfl, ⟨[], rfl, List.not_mem_nil⟩, fun _ => rfl⟩
  trans {s t u} hst htu := by
    refine ⟨htu.refuses.trans hst.refuses, ?_, fun root => (htu.packages root).trans (hst.packages root)⟩
    obtain ⟨entries, ht, hentries⟩ := hst.puts
    obtain ⟨more, hu, hmore⟩ := htu.puts
    refine ⟨entries ++ more, ?_, fun hmem => ?_⟩
    · rw [hu, ht, Assoc.insertAll_append]
    · rw [Assoc.keys, List.map_append] at hmem
      exact (List.mem_append.mp hmem).elim hentries hmore

/-- A store that has grown is the same if the same is found in it everywhere. -/
theorem Grows.eq_of_find? (h : s.Grows t) (hfind : ∀ place, t.find? place = s.find? place) : t = s := by
  obtain ⟨entries, ht, hroot⟩ := h.puts
  have hentries : t.entries = s.entries := by
    rw [ht]
    refine Assoc.insertAll_eq_self fun place => ?_
    by_cases hplace : place = []
    · rw [hplace]
      exact Assoc.find?_insertAll_of_notMem hroot _
    · have hsame := hfind place
      rwa [find?, if_neg hplace, find?, if_neg hplace, ht] at hsame
  calc t = ⟨t.entries, t.refuses⟩ := rfl
    _ = s := by rw [hentries, h.refuses]

theorem grows_put (hplace : place ≠ []) (hnew : ∀ root, packageAt? root place node = none)
    (hold : ∀ root old, s.find? place = some old → packageAt? root place old = none) : s.Grows (s.put place node) where
  refuses := rfl
  puts := ⟨[(place, node)], rfl, fun hmem => hplace (List.mem_singleton.mp hmem).symm⟩
  packages root := buildDirectories_put root (hnew root) (hold root) hplace

theorem grows_put_file (hname : name ≠ buildFileName) : s.Grows (s.put (place ++ [name]) node) :=
  grows_put (List.concat_ne_nil _ _) (fun root => packageAt?_concat hname root place node) fun root old _ =>
    packageAt?_concat hname root place old

theorem grows_put_directory (hfile : ∀ text mode, s.find? place ≠ some (.file text mode)) (hplace : place ≠ []) :
    s.Grows (s.put place .directory) := by
  refine grows_put hplace (fun _ => rfl) fun root old hold => ?_
  cases old with
  | directory => rfl
  | file text mode => exact absurd hold (hfile text mode)

end Store

end BuildPlan
