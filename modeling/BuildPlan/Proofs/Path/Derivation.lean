import BuildPlan.Path.Basic
import BuildPlan.Proofs.Path.Lexical

/-!
# Deriving a path again

A file name or an extension that is given to a build path takes the place of the one that was given before
(`derive_overwrites`). A path is its directory part with its last component behind it, and what is put behind it without
a slash changes the last component only (`dirPart_append`, `basename_append`). The stem of a component ends before its
last dot, unless only dots stand in front of that (`nameStem_cases`).
-/

namespace BuildPlan

namespace Lexical

variable {name : List Char}

/-! ### The directory part -/

theorem ne_slash_of_mem_reverse (h : '/' ∉ name) : ∀ c ∈ name.reverse, decide (c ≠ '/') = true := by
  intro c hc
  rw [decide_eq_true_eq]
  rintro rfl
  exact h (List.mem_reverse.mp hc)

theorem dirPart_append (h : '/' ∉ name) (p : List Char) : dirPart (p ++ name) = dirPart p := by
  rw [dirPart, List.reverse_append, List.dropWhile_append_of_pos (ne_slash_of_mem_reverse h), dirPart]

theorem basename_append (h : '/' ∉ name) (p : List Char) : basename (p ++ name) = basename p ++ name := by
  rw [basename, List.reverse_append, List.takeWhile_append_of_pos (ne_slash_of_mem_reverse h), List.reverse_append,
    List.reverse_reverse, basename]

theorem dirPart_concat_slash (d : List Char) : dirPart (d ++ ['/']) = d ++ ['/'] := by
  simp [dirPart]

theorem basename_concat_slash (d : List Char) : basename (d ++ ['/']) = [] := by
  simp [basename]

theorem dirPart_dirPart (p : List Char) : dirPart (dirPart p) = dirPart p ∧ basename (dirPart p) = [] := by
  rcases cases_basename p with ⟨hnil, -⟩ | ⟨d, -, hd⟩
  · rw [hnil]
    exact ⟨rfl, rfl⟩
  · rw [hd]
    exact ⟨dirPart_concat_slash d, basename_concat_slash d⟩

theorem dirPart_append_name (h : '/' ∉ name) (p : List Char) :
    dirPart (dirPart p ++ name) = dirPart p ∧ basename (dirPart p ++ name) = name := by
  rw [dirPart_append h, basename_append h, (dirPart_dirPart p).1, (dirPart_dirPart p).2]
  exact ⟨rfl, rfl⟩

theorem dirname_eq (p : List Char) :
    dirname p = if (dirPart p).all (· = '/') then dirPart p else trimSlashes (dirPart p) := rfl

theorem trimSlashes_concat_slash {d : List Char} (h : d.getLast? ≠ some '/') : trimSlashes (d ++ ['/']) = d := by
  rcases List.eq_nil_or_concat d with rfl | ⟨front, c, rfl⟩
  · rfl
  · have hc : c ≠ '/' := fun hc => h (by rw [hc, List.concat_eq_append, List.getLast?_concat])
    simp [trimSlashes, hc]

theorem getLast?_trimSlashes (p : List Char) : (trimSlashes p).getLast? ≠ some '/' := by
  intro h
  have hhead := List.head?_dropWhile_not (· = '/') p.reverse
  rw [trimSlashes, List.getLast?_reverse] at h
  rw [h] at hhead
  simp at hhead

theorem dirname_cases (p : List Char) :
    (dirname p).all (· = '/') = true ∨ (dirname p).getLast? ≠ some '/' := by
  rw [dirname_eq]
  split
  case isTrue hall => exact .inl hall
  case isFalse => exact .inr (getLast?_trimSlashes _)

theorem dirname_join {d : List Char} (hd : d.all (· = '/') = true ∨ d.getLast? ≠ some '/') (h : '/' ∉ name) :
    dirname (join d name) = d := by
  have hrelative : name.head? ≠ some '/' := fun hhead => h (List.mem_of_mem_head? hhead)
  rw [join, if_neg hrelative]
  by_cases hplain : d = [] ∨ d.getLast? = some '/'
  · -- the directory is nothing but slashes
    have hall : d.all (· = '/') = true := hd.elim id fun hlast => by
      rw [hplain.resolve_right hlast]
      rfl
    have hpart : dirPart d = d := by
      rcases hplain with rfl | hlast
      · rfl
      · obtain ⟨front, rfl⟩ := List.getLast?_eq_some_iff.mp hlast
        exact dirPart_concat_slash front
    rw [if_pos hplain, dirname_eq, dirPart_append h, hpart, if_pos hall]
  · obtain ⟨hne, hlast⟩ := not_or.mp hplain
    have hall : ¬ (d ++ ['/']).all (· = '/') = true := by
      intro hall
      rw [List.all_append, Bool.and_eq_true] at hall
      have hslash := List.all_eq_true.mp hall.1 _ (List.getLast_mem hne)
      exact hlast (by rw [List.getLast?_eq_some_getLast hne, of_decide_eq_true hslash])
    rw [if_neg hplain, ← List.singleton_append, ← List.append_assoc, dirname_eq, dirPart_append h,
      dirPart_concat_slash, if_neg hall, trimSlashes_concat_slash hlast]

/-! ### Stems -/

theorem nameStem_eq (name : List Char) :
    nameStem name =
      if (name.dropWhile (· = '.')).contains '.' then
        name.takeWhile (· = '.') ++ (((name.dropWhile (· = '.')).reverse.dropWhile (· ≠ '.')).drop 1).reverse
      else name := rfl

/-- An extension ends at the last dot, if something other than dots stands in front of it. -/
theorem nameStem_extension {lead extension : List Char} (hlead : ∃ c ∈ lead, c ≠ '.') (h : '.' ∉ extension) :
    nameStem (lead ++ '.' :: extension) = lead := by
  obtain ⟨c, hc, hdot⟩ := hlead
  have hrest : lead.dropWhile (· = '.') ≠ [] := fun hnil =>
    hdot (of_decide_eq_true (List.dropWhile_eq_nil_iff.mp hnil c hc))
  have hparts := List.takeWhile_append_dropWhile (p := (· = '.')) (l := lead)
  have hdrop : (lead ++ '.' :: extension).dropWhile (· = '.') = lead.dropWhile (· = '.') ++ '.' :: extension := by
    rw [List.dropWhile_append, if_neg (by simpa using hrest)]
  have htake : (lead ++ '.' :: extension).takeWhile (· = '.') = lead.takeWhile (· = '.') := by
    rw [List.takeWhile_append, if_neg]
    intro hlength
    have hlengths := congrArg List.length hparts
    rw [List.length_append, hlength] at hlengths
    exact hrest (List.length_eq_zero_iff.mp (Nat.add_eq_left.mp hlengths))
  have hback : ∀ c ∈ extension.reverse, decide (c ≠ '.') = true := by
    intro c hc
    rw [decide_eq_true_eq]
    rintro rfl
    exact h (List.mem_reverse.mp hc)
  have hstem : ((lead.dropWhile (· = '.') ++ '.' :: extension).reverse.dropWhile (· ≠ '.')).drop 1 =
      (lead.dropWhile (· = '.')).reverse := by
    rw [List.reverse_append, List.reverse_cons, List.append_assoc, List.dropWhile_append_of_pos hback]
    rfl
  rw [nameStem_eq, hdrop, htake, if_pos (by simp), hstem, List.reverse_reverse, hparts]

theorem nameStem_cases (name : List Char) :
    (nameStem name = name ∧ '.' ∉ name.dropWhile (· = '.')) ∨
      ∃ extension, name = nameStem name ++ '.' :: extension ∧ '.' ∉ extension ∧ ∃ c ∈ nameStem name, c ≠ '.' := by
  by_cases hdot : '.' ∈ name.dropWhile (· = '.')
  · right
    -- the last dot of what follows the dots in front
    obtain ⟨back, front, hrest, hback⟩ := List.eq_append_cons_of_mem (List.mem_reverse.mpr hdot)
    have hext : '.' ∉ back.reverse := fun hmem => hback (List.mem_reverse.mp hmem)
    have hdrop : name.dropWhile (· = '.') = front.reverse ++ '.' :: back.reverse := by
      rw [← List.reverse_reverse (name.dropWhile _), hrest]
      simp
    have hname : name = name.takeWhile (· = '.') ++ front.reverse ++ '.' :: back.reverse := by
      rw [List.append_assoc, ← hdrop, List.takeWhile_append_dropWhile]
    have hlead : ∃ c ∈ name.takeWhile (· = '.') ++ front.reverse, c ≠ '.' := by
      have hhead := List.head?_dropWhile_not (· = '.') name
      rw [hdrop] at hhead
      cases hfront : front.reverse with
      | nil =>
        rw [hfront] at hhead
        simp at hhead
      | cons c rest =>
        rw [hfront] at hhead
        exact ⟨c, List.mem_append_right _ List.mem_cons_self, by simpa using hhead⟩
    have hstem := nameStem_extension hlead hext
    rw [← hname] at hstem
    rw [hstem]
    exact ⟨back.reverse, hname, hext, hlead⟩
  · left
    refine ⟨?_, hdot⟩
    rw [nameStem_eq, if_neg fun hcontains => hdot (List.contains_iff_mem.mp hcontains)]

theorem noSlash_nameStem (h : '/' ∉ name) : '/' ∉ nameStem name := by
  rcases nameStem_cases name with ⟨hstem, -⟩ | ⟨extension, hname, -⟩
  · rwa [hstem]
  · intro hmem
    rw [hname] at h
    exact h (List.mem_append_left _ hmem)

theorem exists_ne_dot_nameStem (h : ∃ c ∈ name, c ≠ '.') : ∃ c ∈ nameStem name, c ≠ '.' := by
  rcases nameStem_cases name with ⟨hstem, -⟩ | ⟨extension, -, -, hlead⟩
  · rwa [hstem]
  · exact hlead

end Lexical

namespace OutPath

open Lexical (dirPart basename nameStem)

variable {p : OutPath} {extension : String}

theorem toList_directoryOf (path : String) : (directoryOf path).toList = Lexical.dirname path.toList :=
  String.toList_ofList

theorem toList_lastComponent (path : String) : (lastComponent path).toList = basename path.toList :=
  String.toList_ofList

/-! ### File names -/

theorem directoryOf_withFileName {name : String} (h : '/' ∉ name.toList) :
    directoryOf (p.withFileName name).rel = directoryOf p.rel := by
  have hrel : (p.withFileName name).rel.toList = Lexical.join (Lexical.dirname p.rel.toList) name.toList :=
    String.toList_ofList
  rw [directoryOf, hrel, Lexical.dirname_join (Lexical.dirname_cases _) h, directoryOf]

theorem withFileName_eq (p : OutPath) (name : String) :
    p.withFileName name = ⟨p.root, p.hash, joinText (directoryOf p.rel) name⟩ := by
  rw [joinText, toList_directoryOf]
  rfl

/-! ### Extensions -/

theorem toList_withExtension (p : OutPath) (extension : String) :
    (p.withExtension extension).rel.toList =
      dirPart p.rel.toList ++ (nameStem (basename p.rel.toList) ++ '.' :: extension.toList.dropWhile (· = '.')) := by
  rw [← List.append_assoc]
  exact String.toList_ofList

/-- Another extension leaves the directory as it is, and the last component becomes its stem with the extension. -/
theorem parts_withExtension (p : OutPath) (h : '/' ∉ extension.toList) :
    dirPart (p.withExtension extension).rel.toList = dirPart p.rel.toList ∧
      basename (p.withExtension extension).rel.toList =
        nameStem (basename p.rel.toList) ++ '.' :: extension.toList.dropWhile (· = '.') := by
  rw [toList_withExtension]
  refine Lexical.dirPart_append_name (fun hmem => ?_) _
  rcases List.mem_append.mp hmem with hstem | hext
  · exact Lexical.noSlash_nameStem (Lexical.noSlash_basename _) hstem
  · rcases List.mem_cons.mp hext with heq | hext
    · cases heq
    · exact h ((List.dropWhile_sublist _).mem hext)

theorem stem_withExtension (hname : ∃ c ∈ basename p.rel.toList, c ≠ '.') (hslash : '/' ∉ extension.toList)
    (hdot : '.' ∉ extension.toList.dropWhile (· = '.')) :
    Lexical.stem (p.withExtension extension).rel.toList = Lexical.stem p.rel.toList := by
  obtain ⟨hdir, hbase⟩ := parts_withExtension p hslash
  rw [Lexical.stem, hdir, hbase, Lexical.nameStem_extension (Lexical.exists_ne_dot_nameStem hname) hdot, Lexical.stem]

end OutPath

/-- **Of file names or extensions that are given to a path one after the other, the last one counts**; for extensions
the last component has to have something besides dots. A new extension does not touch the directory, and dots in front of
a component start no extension. -/
theorem derive_overwrites (p : OutPath) :
    (∀ name other : String, '/' ∉ name.toList →
      (p.withFileName name).withFileName other = p.withFileName other) ∧
    (∀ extension other : String, (∃ c ∈ (lastComponent p.rel).toList, c ≠ '.') → '/' ∉ extension.toList →
      '.' ∉ extension.toList.dropWhile (· = '.') →
      (p.withExtension extension).withExtension other = p.withExtension other) ∧
    (∀ extension : String, '/' ∉ extension.toList →
      Lexical.dirPart (p.withExtension extension).rel.toList = Lexical.dirPart p.rel.toList ∧
        directoryOf (p.withExtension extension).rel = directoryOf p.rel) ∧
    (∀ extension : String, '.' ∉ (lastComponent p.rel).toList.dropWhile (· = '.') →
      (p.withExtension extension).rel.toList = p.rel.toList ++ '.' :: extension.toList.dropWhile (· = '.')) ∧
    ∀ derivation text, (p.derive derivation text).root = p.root ∧ (p.derive derivation text).hash = p.hash := by
  refine ⟨fun name other h => ?_, fun extension other hname hslash hdot => ?_, fun extension h => ?_,
    fun extension h => ?_, fun derivation text => ?_⟩
  · rw [OutPath.withFileName_eq, OutPath.directoryOf_withFileName h, OutPath.withFileName_eq p other]
    rfl
  · rw [OutPath.toList_lastComponent] at hname
    have hstem := OutPath.stem_withExtension hname hslash hdot
    rw [OutPath.withExtension, hstem]
    rfl
  · obtain ⟨hdir, -⟩ := OutPath.parts_withExtension p h
    refine ⟨hdir, ?_⟩
    rw [directoryOf, Lexical.dirname_eq, hdir, ← Lexical.dirname_eq, directoryOf]
  · rw [OutPath.toList_lastComponent] at h
    have hstem : Lexical.nameStem (Lexical.basename p.rel.toList) = Lexical.basename p.rel.toList := by
      rw [Lexical.nameStem_eq, if_neg fun hcontains => h (List.contains_iff_mem.mp hcontains)]
    rw [OutPath.toList_withExtension, hstem, ← List.append_assoc, Lexical.dirPart_append_basename]
  · cases derivation <;> exact ⟨rfl, rfl⟩

theorem derive_overwrites_sample :
    let p : OutPath := ⟨"/out/build", "1A2B3C4D", "lib.d//..foo.tar.c"⟩
    let hidden : OutPath := ⟨"/out/build", "1A2B3C4D", "home.d/.bashrc"⟩
    (p.withFileName "a.o").withFileName "" = p.withFileName "" ∧
      (p.withExtension "..o").withExtension "d" = p.withExtension "d" ∧
      directoryOf (p.withExtension "..o").rel = directoryOf p.rel ∧
      (hidden.withExtension ".o").rel.toList = "home.d/.bashrc.o".toList := by
  intro p hidden
  obtain ⟨hfile, hextension, hdirectory, -⟩ := derive_overwrites p
  obtain ⟨-, -, -, hwhole, -⟩ := derive_overwrites hidden
  refine ⟨hfile "a.o" "" (by decide), hextension "..o" "d" ⟨'f', by decide +kernel, by decide⟩ (by decide) (by decide),
    (hdirectory "..o" (by decide)).2, ?_⟩
  exact (hwhole ".o" (by decide +kernel)).trans (by decide)

end BuildPlan
