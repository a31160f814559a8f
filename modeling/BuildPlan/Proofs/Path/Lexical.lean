import BuildPlan.Path.Lexical
import Mathlib.Data.List.TakeWhile

/-!
# Components of paths

`components` takes a path apart, and the other operations on paths are described by what they do to the components:
`tidy` keeps them, `join` with a name adds the name to them, and `dirname` takes a name away again.
-/

namespace BuildPlan.Lexical

/-- A name that stands for itself as a component. -/
structure IsName (name : List Char) : Prop where
  noSlash : '/' ∉ name
  ne_nil : name ≠ []
  ne_dot : name ≠ ['.']
  ne_dots : name ≠ ['.', '.']

/-! ### Taking paths apart -/

theorem split_ne_nil (p : List Char) : split p ≠ [] := by
  unfold split
  split
  · exact List.cons_ne_nil _ _
  · exact List.cons_ne_nil _ _
  · split <;> exact List.cons_ne_nil _ _

theorem split_cons_of_ne {c : Char} (h : c ≠ '/') (p : List Char) :
    ∃ part parts, split p = part :: parts ∧ split (c :: p) = (c :: part) :: parts := by
  rw [split.eq_def (c :: p)]
  split
  case h_1 heq => cases heq
  case h_2 heq => exact absurd (List.cons.inj heq).1 h
  case h_3 heq =>
    obtain ⟨rfl, rfl⟩ := List.cons.inj heq
    cases hsplit : split p with
    | nil => exact absurd hsplit (split_ne_nil p)
    | cons part parts => exact ⟨part, parts, rfl, rfl⟩

theorem split_append_slash (p q : List Char) : split (p ++ '/' :: q) = split p ++ split q := by
  induction p with
  | nil => rfl
  | cons c p ih =>
    by_cases h : c = '/'
    · subst h
      rw [List.cons_append, split, split, ih]
      rfl
    · obtain ⟨part, parts, hp, hcons⟩ := split_cons_of_ne h p
      obtain ⟨part', parts', hpq, hcons'⟩ := split_cons_of_ne h (p ++ '/' :: q)
      rw [List.cons_append, hcons', hcons]
      rw [ih, hp] at hpq
      cases hpq
      rfl

theorem split_of_noSlash {p : List Char} (h : '/' ∉ p) : split p = [p] := by
  induction p with
  | nil => rfl
  | cons c p ih =>
    obtain ⟨hc, hp⟩ := not_or.mp (fun hmem => h (List.mem_cons.mpr hmem))
    obtain ⟨part, parts, hsplit, hcons⟩ := split_cons_of_ne (Ne.symm hc) p
    rw [ih hp] at hsplit
    cases hsplit
    exact hcons

theorem noSlash_of_mem_split {p part : List Char} (h : part ∈ split p) : '/' ∉ part := by
  induction p generalizing part with
  | nil =>
    rw [List.mem_singleton.mp h]
    exact List.not_mem_nil
  | cons c p ih =>
    by_cases hc : c = '/'
    · subst hc
      rw [split] at h
      rcases List.mem_cons.mp h with rfl | h
      · exact List.not_mem_nil
      · exact ih h
    · obtain ⟨first, parts, hsplit, hcons⟩ := split_cons_of_ne hc p
      rw [hsplit] at ih
      rw [hcons] at h
      rcases List.mem_cons.mp h with rfl | h
      · intro hmem
        rcases List.mem_cons.mp hmem with rfl | hmem
        · exact hc rfl
        · exact ih List.mem_cons_self hmem
      · exact ih (List.mem_cons_of_mem _ h)

/-- The stack of the components of a path, last first. -/
def stackOf (p : List Char) : List (List Char) := (split p).foldl push []

theorem stackOf_append_slash (p q : List Char) : stackOf (p ++ '/' :: q) = (split q).foldl push (stackOf p) := by
  rw [stackOf, split_append_slash, List.foldl_append, stackOf]

theorem push_name {name : List Char} (h : IsName name) (stack : List (List Char)) :
    push stack name = name :: stack := by
  unfold push
  have hkept : ¬(name = [] ∨ name = ['.']) := fun hn => hn.elim h.ne_nil h.ne_dot
  rw [if_neg hkept, if_neg h.ne_dots]

theorem foldl_push_names {parts : List (List Char)} (h : ∀ part ∈ parts, IsName part) (stack : List (List Char)) :
    parts.foldl push stack = parts.reverse ++ stack := by
  induction parts generalizing stack with
  | nil => rfl
  | cons part rest ih =>
    obtain ⟨hpart, hrest⟩ := List.forall_mem_cons.mp h
    rw [List.foldl_cons, push_name hpart, ih hrest, List.reverse_cons, List.append_assoc, List.singleton_append]

theorem components_append_slash (p : List Char) : components (p ++ ['/']) = components p := by
  change (stackOf (p ++ ['/'])).reverse = (stackOf p).reverse
  rw [stackOf_append_slash]
  rfl

theorem components_append_slash_name {name : List Char} (h : IsName name) (p : List Char) :
    components (p ++ '/' :: name) = components p ++ [name] := by
  change (stackOf (p ++ '/' :: name)).reverse = (stackOf p).reverse ++ [name]
  rw [stackOf_append_slash, split_of_noSlash h.noSlash, List.foldl_cons, List.foldl_nil, push_name h, List.reverse_cons]

theorem components_name {name : List Char} (h : IsName name) : components name = [name] := by
  change (stackOf name).reverse = _
  rw [stackOf, split_of_noSlash h.noSlash, List.foldl_cons, List.foldl_nil, push_name h]
  rfl

/-! ### The last component -/

theorem dirPart_append_basename (p : List Char) : dirPart p ++ basename p = p := by
  rw [dirPart, basename, ← List.reverse_append, List.takeWhile_append_dropWhile, List.reverse_reverse]

theorem cases_basename (p : List Char) :
    (dirPart p = [] ∧ basename p = p) ∨ ∃ d, p = d ++ '/' :: basename p ∧ dirPart p = d ++ ['/'] := by
  have hparts := dirPart_append_basename p
  cases hdrop : p.reverse.dropWhile (· ≠ '/') with
  | nil =>
    have hdir : dirPart p = [] := by rw [dirPart, hdrop, List.reverse_nil]
    rw [hdir] at hparts
    exact .inl ⟨hdir, hparts⟩
  | cons c rest =>
    have hslash : c = '/' := by
      have := List.head?_dropWhile_not (· ≠ '/') p.reverse
      rw [hdrop] at this
      simpa using this
    have hdir : dirPart p = rest.reverse ++ ['/'] := by rw [dirPart, hdrop, hslash, List.reverse_cons]
    refine .inr ⟨rest.reverse, ?_, hdir⟩
    rw [hdir, List.append_assoc] at hparts
    exact hparts.symm

theorem basename_of_noSlash {name : List Char} (h : '/' ∉ name) : basename name = name := by
  have htake : name.reverse.takeWhile (· ≠ '/') = name.reverse := by
    refine List.takeWhile_eq_self_iff.mpr fun c hc => ?_
    simpa using fun hslash : c = '/' => h (hslash ▸ List.mem_reverse.mp hc)
  rw [basename, htake, List.reverse_reverse]

theorem noSlash_basename (p : List Char) : '/' ∉ basename p := by
  intro hmem
  have hslash := List.mem_takeWhile_imp (List.mem_reverse.mp hmem)
  simp at hslash

theorem getLast?_split (p : List Char) : (split p).getLast? = some (basename p) := by
  have hbasename := split_of_noSlash (noSlash_basename p)
  rcases cases_basename p with ⟨-, hbase⟩ | ⟨d, hp, -⟩
  · rw [hbase] at hbasename
    rw [hbasename, hbase]
    rfl
  · have hsplit := split_append_slash d (basename p)
    rw [← hp, hbasename] at hsplit
    rw [hsplit, List.getLast?_concat]

theorem basename_append_slash {name : List Char} (h : '/' ∉ name) (p : List Char) :
    basename (p ++ '/' :: name) = name := by
  have hall : ∀ c ∈ name.reverse, decide (c ≠ '/') = true := by
    intro c hc
    simpa using fun hslash : c = '/' => h (hslash ▸ List.mem_reverse.mp hc)
  rw [basename, List.reverse_append, List.reverse_cons, List.append_assoc,
    List.takeWhile_append_of_pos hall]
  simp

theorem join_cases {name : List Char} (h : IsName name) (root : List Char) :
    (root = [] ∧ join root name = name) ∨
      ∃ d, join root name = d ++ '/' :: name ∧ components d = components root := by
  have hrelative : name.head? ≠ some '/' := fun hhead => h.noSlash (List.mem_of_mem_head? hhead)
  rw [join, if_neg hrelative]
  by_cases hnil : root = []
  · rw [if_pos (.inl hnil), hnil]
    exact .inl ⟨rfl, rfl⟩
  by_cases hlast : root.getLast? = some '/'
  · obtain ⟨d, rfl⟩ := List.getLast?_eq_some_iff.mp hlast
    rw [if_pos (.inr hlast)]
    exact .inr ⟨d, by rw [List.append_assoc]; rfl, (components_append_slash d).symm⟩
  · rw [if_neg (not_or.mpr ⟨hnil, hlast⟩)]
    exact .inr ⟨root, rfl, rfl⟩

theorem basename_join {name : List Char} (h : IsName name) (root : List Char) : basename (join root name) = name := by
  rcases join_cases h root with ⟨-, hjoin⟩ | ⟨d, hjoin, -⟩
  · rw [hjoin, basename_of_noSlash h.noSlash]
  · rw [hjoin, basename_append_slash h.noSlash]

theorem components_join {name : List Char} (h : IsName name) (root : List Char) :
    components (join root name) = components root ++ [name] := by
  rcases join_cases h root with ⟨rfl, hjoin⟩ | ⟨d, hjoin, hd⟩
  · rw [hjoin, components_name h]
    rfl
  · rw [hjoin, components_append_slash_name h, hd]

theorem components_trimSlashes (p : List Char) : components (trimSlashes p) = components p := by
  obtain ⟨n, hn⟩ : ∃ n, p = trimSlashes p ++ List.replicate n '/' := by
    refine ⟨(p.reverse.takeWhile (· = '/')).length, ?_⟩
    have hall : p.reverse.takeWhile (· = '/') = List.replicate (p.reverse.takeWhile (· = '/')).length '/' :=
      List.eq_replicate_of_mem fun c hc => by simpa using List.mem_takeWhile_imp hc
    have hparts := congrArg List.reverse (List.takeWhile_append_dropWhile (p := (· = '/')) (l := p.reverse))
    rw [List.reverse_append, List.reverse_reverse, hall, List.reverse_replicate] at hparts
    exact hparts.symm
  have hslashes : ∀ n d, components (d ++ List.replicate n '/') = components d := by
    intro n
    induction n with
    | zero => exact fun d => by rw [List.replicate_zero, List.append_nil]
    | succ n ih => exact fun d => by rw [List.replicate_succ', ← List.append_assoc, components_append_slash, ih]
  rw [hn, hslashes, ← hn]

theorem stackOf_dirname (p : List Char) : stackOf p = push (stackOf (dirname p)) (basename p) := by
  have hdir : stackOf (dirname p) = stackOf (dirPart p) := by
    refine List.reverse_inj.mp ?_
    show components (dirname p) = components (dirPart p)
    by_cases hall : (dirPart p).all (· = '/') = true
    · exact congrArg components (if_pos hall)
    · exact (congrArg components (if_neg hall)).trans (components_trimSlashes _)
  have hlast : split (basename p) = [basename p] := split_of_noSlash (noSlash_basename p)
  rw [hdir]
  rcases cases_basename p with ⟨hnil, hbase⟩ | ⟨d, hp, hd⟩
  · rw [hbase] at hlast
    rw [hnil, hbase, stackOf, hlast]
    rfl
  · rw [hd, stackOf_append_slash]
    show stackOf p = push (stackOf d) (basename p)
    rw [hp, stackOf_append_slash, basename_append_slash (noSlash_basename p), hlast]
    rfl

/-- What `dirname` leaves of a path are all components but the last one. -/
theorem components_dirname {p : List Char} (h : IsName (basename p)) :
    components (dirname p) ++ [basename p] = components p := by
  show (stackOf (dirname p)).reverse ++ [basename p] = (stackOf p).reverse
  rw [stackOf_dirname p, push_name h, List.reverse_cons]

/-! ### Tidy paths -/

theorem foldl_push_filter (parts stack : List (List Char)) :
    (parts.filter fun part => part ≠ [] ∧ part ≠ ['.']).foldl push stack = parts.foldl push stack := by
  induction parts generalizing stack with
  | nil => rfl
  | cons part rest ih =>
    by_cases hpart : part = [] ∨ part = ['.']
    · have hskip : push stack part = stack := by rw [push, if_pos hpart]
      have hdrop : ¬(part ≠ [] ∧ part ≠ ['.']) := fun h => hpart.elim h.1 h.2
      rw [List.filter_cons_of_neg (by simpa using hdrop), List.foldl_cons, hskip, ih]
    · rw [List.filter_cons_of_pos (by simpa using hpart), List.foldl_cons, List.foldl_cons, ih]

theorem split_intercalate {parts : List (List Char)} (h : ∀ part ∈ parts, '/' ∉ part) (hne : parts ≠ []) :
    split (['/'].intercalate parts) = parts := by
  induction parts with
  | nil => exact absurd rfl hne
  | cons part rest ih =>
    obtain ⟨hpart, hrest⟩ := List.forall_mem_cons.mp h
    by_cases hnil : rest = []
    · rw [hnil, List.intercalate_singleton, split_of_noSlash hpart]
    · rw [List.intercalate_cons_of_ne_nil hnil, List.append_assoc, List.singleton_append, split_append_slash,
        split_of_noSlash hpart, ih hrest hnil]
      rfl

/-- The components that a path is shown with. -/
def shownParts (p : List Char) : List (List Char) := (split p).filter fun part => part ≠ [] ∧ part ≠ ['.']

/-- A path is shown as its components after at most two slashes, or as a dot. -/
theorem tidy_eq (p : List Char) :
    ∃ root, (root = [] ∨ root = ['/'] ∨ root = ['/', '/']) ∧
      tidy p = if root = [] ∧ shownParts p = [] then ['.'] else root ++ ['/'].intercalate (shownParts p) := by
  refine ⟨_, ?_, rfl⟩
  split
  · exact .inr (.inl rfl)
  · exact .inr (.inr rfl)
  · exact .inr (.inl rfl)
  · exact .inl rfl

theorem split_shown {p : List Char} (h : shownParts p ≠ []) : split (['/'].intercalate (shownParts p)) = shownParts p :=
  split_intercalate (fun _ hpart => noSlash_of_mem_split (List.mem_filter.mp hpart).1) h

theorem shownParts_append_slash (p q : List Char) : shownParts (p ++ '/' :: q) = shownParts p ++ shownParts q := by
  rw [shownParts, split_append_slash, List.filter_append]
  rfl

theorem shownParts_join {b : List Char} (h : b.head? ≠ some '/') (a : List Char) :
    shownParts (join a b) = shownParts a ++ shownParts b := by
  rw [join, if_neg h]
  by_cases hnil : a = []
  · rw [if_pos (.inl hnil), hnil]
    rfl
  by_cases hlast : a.getLast? = some '/'
  · obtain ⟨d, rfl⟩ := List.getLast?_eq_some_iff.mp hlast
    have hslash : shownParts (d ++ ['/']) = shownParts d := by
      rw [shownParts_append_slash]
      exact List.append_nil _
    rw [if_pos (.inr hlast), hslash, List.append_assoc]
    exact shownParts_append_slash d b
  · rw [if_neg (not_or.mpr ⟨hnil, hlast⟩), shownParts_append_slash]

theorem head?_intercalate_ne {parts : List (List Char)} (h : ∀ part ∈ parts, IsName part) :
    (['/'].intercalate parts).head? ≠ some '/' := by
  cases parts with
  | nil => exact nofun
  | cons part rest =>
    obtain ⟨hpart, -⟩ := List.forall_mem_cons.mp h
    obtain ⟨c, tail, rfl⟩ := List.exists_cons_of_ne_nil hpart.ne_nil
    have hhead : (['/'].intercalate ((c :: tail) :: rest)).head? = some c := by
      by_cases hnil : rest = []
      · rw [hnil, List.intercalate_singleton, List.head?_cons]
      · rw [List.intercalate_cons_of_ne_nil hnil, List.append_assoc, List.cons_append, List.head?_cons]
    rw [hhead]
    exact fun hslash => hpart.noSlash (Option.some.inj hslash ▸ List.mem_cons_self)

theorem getLast?_intercalate_ne {parts : List (List Char)} (h : ∀ part ∈ parts, IsName part) :
    (['/'].intercalate parts).getLast? ≠ some '/' := by
  intro hlast
  obtain ⟨d, hd⟩ := List.getLast?_eq_some_iff.mp hlast
  have hne : parts ≠ [] := by
    rintro rfl
    cases hlast
  have hsplit := split_intercalate (fun part hpart => (h part hpart).noSlash) hne
  rw [hd, split_append_slash] at hsplit
  exact (h [] (hsplit ▸ List.mem_append_right _ (List.mem_singleton_self []))).ne_nil rfl

theorem intercalate_concat {parts : List (List Char)} (h : parts ≠ []) (name : List Char) :
    ['/'].intercalate (parts ++ [name]) = ['/'].intercalate parts ++ '/' :: name := by
  induction parts with
  | nil => exact absurd rfl h
  | cons part rest ih =>
    rw [List.cons_append, List.intercalate_cons_of_ne_nil (List.concat_ne_nil _ _)]
    by_cases hnil : rest = []
    · rw [hnil, List.nil_append, List.intercalate_singleton, List.intercalate_singleton, List.append_assoc]
      rfl
    · rw [ih hnil, List.intercalate_cons_of_ne_nil hnil, List.append_assoc, List.append_assoc, List.append_assoc]

theorem shownParts_intercalate {parts : List (List Char)} (h : ∀ part ∈ parts, IsName part) :
    shownParts (['/'].intercalate parts) = parts := by
  by_cases hnil : parts = []
  · rw [hnil]
    rfl
  · rw [shownParts, split_intercalate (fun part hpart => (h part hpart).noSlash) hnil]
    exact List.filter_eq_self.mpr fun part hpart => decide_eq_true ⟨(h part hpart).ne_nil, (h part hpart).ne_dot⟩

theorem shownParts_tidy (p : List Char) : shownParts (tidy p) = shownParts p := by
  have hparts : shownParts (['/'].intercalate (shownParts p)) = shownParts p := by
    by_cases hnil : shownParts p = []
    · rw [hnil]
      rfl
    · rw [shownParts, split_shown hnil, shownParts]
      simp only [List.filter_filter, Bool.and_self]
  have hroot : ∀ q, shownParts ('/' :: q) = shownParts q := fun _ => rfl
  obtain ⟨root, hcases, htidy⟩ := tidy_eq p
  rw [htidy]
  split
  case isTrue h =>
    rw [h.2]
    rfl
  case isFalse =>
    rcases hcases with rfl | rfl | rfl
    · exact hparts
    · exact (hroot _).trans hparts
    · exact (hroot _).trans ((hroot _).trans hparts)

theorem components_eq (p : List Char) : components p = ((shownParts p).foldl push []).reverse :=
  congrArg List.reverse (foldl_push_filter (split p) []).symm

theorem components_tidy (p : List Char) : components (tidy p) = components p := by
  rw [components_eq, shownParts_tidy, ← components_eq]

theorem basename_tidy {p : List Char} (h : IsName (basename p)) : basename (tidy p) = basename p := by
  obtain ⟨init, hinit⟩ := List.getLast?_eq_some_iff.mp (getLast?_split p)
  have hlast : (shownParts p).getLast? = some (basename p) := by
    refine List.getLast?_eq_some_iff.mpr ⟨init.filter fun part => part ≠ [] ∧ part ≠ ['.'], ?_⟩
    rw [shownParts, hinit, List.filter_append, List.filter_cons_of_pos (by simpa using ⟨h.ne_nil, h.ne_dot⟩),
      List.filter_nil]
  have hne : shownParts p ≠ [] := by
    intro hnil
    rw [hnil] at hlast
    cases hlast
  have hsplit := split_shown hne
  have hroot : ∀ q, basename ('/' :: q) = basename q := by
    intro q
    have hq := getLast?_split ('/' :: q)
    rw [split, List.getLast?_cons, getLast?_split] at hq
    exact (Option.some.inj hq).symm
  have hparts : basename (['/'].intercalate (shownParts p)) = basename p := by
    have hq := getLast?_split (['/'].intercalate (shownParts p))
    rw [hsplit, hlast] at hq
    exact (Option.some.inj hq).symm
  obtain ⟨root, hcases, htidy⟩ := tidy_eq p
  rw [htidy, if_neg fun h => hne h.2]
  rcases hcases with rfl | rfl | rfl
  · exact hparts
  · exact (hroot _).trans hparts
  · exact (hroot _).trans ((hroot _).trans hparts)

end BuildPlan.Lexical
