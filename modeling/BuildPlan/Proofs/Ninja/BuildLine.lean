import BuildPlan.Ninja.Reader
import BuildPlan.Proofs.Ninja.RuleNames
import BuildPlan.Proofs.Text.Hex

/-!
# Build lines read back

A build line has its paths in four parts, three of which can be missing, between marks that are words themselves.
`BuildLine.read_head` says that it can be taken apart again whatever characters the paths have: an escaped path is one
word, whose text is the path, so a line is read as the words that it was made of. No path that starts with a slash is
taken for a mark, and so the build line of an edge tells all its paths and its rule: `namedEdges_readBack`.
-/

namespace BuildPlan

namespace Ninja

/-! ### Words -/

/-- No word goes on into this text. -/
def EndsWord (rest : List Char) : Prop := ∀ c ∈ rest.head?, c = ' ' ∨ c = ':'

theorem lexemesFrom_cons {c : Char} (h : isPathSpecial c = false) (word rest : List Char) :
    lexemesFrom word (c :: rest) = lexemesFrom (c :: word) rest := by
  simp only [isPathSpecial, Bool.or_eq_false_iff, decide_eq_false_iff_not] at h
  obtain ⟨⟨⟨hspace, -⟩, hcolon⟩, hdollar⟩ := h
  rw [lexemesFrom]
  · exact fun _ _ hc => absurd hc hdollar
  · exact hspace
  · exact hcolon

theorem lexemesFrom_escapePathChar (c : Char) (word rest : List Char) :
    lexemesFrom word (escapePathChar c ++ rest) = lexemesFrom (c :: word) rest := by
  unfold escapePathChar
  split
  case isTrue => rw [List.cons_append, List.singleton_append, lexemesFrom]
  case isFalse h => rw [List.singleton_append, lexemesFrom_cons (Bool.eq_false_iff.mpr h)]

theorem lexemesFrom_flatMap_escapePathChar (path word rest : List Char) :
    lexemesFrom word (path.flatMap escapePathChar ++ rest) = lexemesFrom (path.reverse ++ word) rest := by
  induction path generalizing word with
  | nil => rfl
  | cons c path ih =>
    rw [List.flatMap_cons, List.append_assoc, lexemesFrom_escapePathChar, ih, List.reverse_cons, List.append_assoc,
      List.singleton_append]

theorem lexemesFrom_of_endsWord {rest : List Char} (h : EndsWord rest) (word : List Char) :
    lexemesFrom word rest = wordOf word ++ lexemesFrom [] rest := by
  cases rest with
  | nil => simp [lexemesFrom, wordOf]
  | cons c rest =>
    rcases h c rfl with rfl | rfl
    · simp [lexemesFrom, wordOf]
    · simp [lexemesFrom, wordOf]

/-- An escaped path is one word. -/
theorem lexemesFrom_escapePath {path : String} (hne : path ≠ "") {rest : List Char} (h : EndsWord rest) :
    lexemesFrom [] ((escapePath path).toList ++ rest) = .word path :: lexemesFrom [] rest := by
  have hword : path.toList.reverse ≠ [] := by simpa using hne
  rw [escapePath, String.toList_ofList, lexemesFrom_flatMap_escapePathChar, List.append_nil,
    lexemesFrom_of_endsWord h, wordOf, if_neg hword, List.reverse_reverse, String.ofList_toList, List.singleton_append]

theorem plain_of_all {text : String} (h : text.toList.all (!isPathSpecial ·) = true) :
    ∀ c ∈ text.toList, isPathSpecial c = false := by
  simpa using h

theorem escapePath_of_plain {text : String} (h : ∀ c ∈ text.toList, isPathSpecial c = false) :
    escapePath text = text := by
  have hchars : ∀ cs : List Char, (∀ c ∈ cs, isPathSpecial c = false) → cs.flatMap escapePathChar = cs := by
    intro cs hcs
    induction cs with
    | nil => rfl
    | cons c rest ih =>
      obtain ⟨hc, hrest⟩ := List.forall_mem_cons.mp hcs
      rw [List.flatMap_cons, escapePathChar, hc, if_neg (by decide), ih hrest, List.singleton_append]
  rw [escapePath, hchars _ h, String.ofList_toList]

/-! ### Parts of a line -/

/-- Paths behind their mark; without paths there is none. -/
def marked (mark : String) (paths : List String) : List String := if paths = [] then [] else mark :: paths

theorem toList_pathList_cons (path next : String) (others : List String) :
    (pathList (path :: next :: others)).toList =
      (escapePath path).toList ++ ' ' :: (pathList (next :: others)).toList := by
  simp [pathList, String.toList_intercalate]

theorem endsWord_nil : EndsWord [] := fun _ hc => nomatch hc

theorem endsWord_space (rest : List Char) : EndsWord (' ' :: rest) := fun _ hc => .inl (Option.some.inj hc).symm

theorem endsWord_colon (rest : List Char) : EndsWord (':' :: rest) := fun _ hc => .inr (Option.some.inj hc).symm

theorem lexemesFrom_space (rest : List Char) : lexemesFrom [] (' ' :: rest) = lexemesFrom [] rest := by
  simp [lexemesFrom, wordOf]

theorem lexemesFrom_colon (rest : List Char) : lexemesFrom [] (':' :: rest) = .colon :: lexemesFrom [] rest := by
  simp [lexemesFrom, wordOf]

theorem lexemesFrom_pathList {paths : List String} (hne : ∀ path ∈ paths, path ≠ "") {rest : List Char}
    (h : EndsWord rest) :
    lexemesFrom [] ((pathList paths).toList ++ rest) = paths.map .word ++ lexemesFrom [] rest := by
  induction paths with
  | nil => rfl
  | cons path others ih =>
    obtain ⟨hpath, hothers⟩ := List.forall_mem_cons.mp hne
    cases others with
    | nil => simpa [pathList] using lexemesFrom_escapePath hpath h
    | cons next others =>
      rw [toList_pathList_cons, List.append_assoc, List.cons_append,
        lexemesFrom_escapePath hpath (endsWord_space _), lexemesFrom_space, ih hothers]
      rfl

theorem lexemesFrom_inputs {paths : List String} (hne : ∀ path ∈ paths, path ≠ "") {rest : List Char}
    (h : EndsWord rest) :
    lexemesFrom [] ((optionalPart " " paths).toList ++ rest) = paths.map .word ++ lexemesFrom [] rest := by
  unfold optionalPart
  split
  case isTrue hnil =>
    subst hnil
    rfl
  case isFalse =>
    rw [String.toList_append, List.append_assoc]
    exact (lexemesFrom_space _).trans (lexemesFrom_pathList hne h)

theorem lexemesFrom_marked {start mark : String} (hstart : start = " " ++ mark ++ " ") (hmark : mark ≠ "")
    (hplain : ∀ c ∈ mark.toList, isPathSpecial c = false) {paths : List String} (hne : ∀ path ∈ paths, path ≠ "")
    {rest : List Char} (h : EndsWord rest) :
    lexemesFrom [] ((optionalPart start paths).toList ++ rest) =
      (marked mark paths).map .word ++ lexemesFrom [] rest := by
  unfold optionalPart marked
  split
  case isTrue => rfl
  case isFalse =>
    have hword := lexemesFrom_escapePath hmark (endsWord_space ((pathList paths).toList ++ rest))
    rw [escapePath_of_plain hplain, lexemesFrom_space, lexemesFrom_pathList hne h] at hword
    rw [List.map_cons, List.cons_append, ← hword, hstart, String.toList_append, String.toList_append,
      String.toList_append]
    simp only [List.append_assoc]
    exact lexemesFrom_space _

theorem endsWord_optionalPart {mark : String} (hmark : mark.toList.head? = some ' ') (paths : List String)
    {rest : List Char} (h : EndsWord rest) : EndsWord ((optionalPart mark paths).toList ++ rest) := by
  unfold optionalPart
  split
  case isTrue => exact h
  case isFalse =>
    obtain ⟨cs, hcs⟩ := List.head?_eq_some_iff.mp hmark
    rw [String.toList_append, hcs]
    exact endsWord_space _

/-! ### Lines -/

/-- A line that can be taken apart: no path is empty or a mark, and the name of the rule is a word by itself. -/
structure BuildLine.Readable (b : BuildLine) : Prop where
  rule : b.rule ≠ ""
  plain : ∀ c ∈ b.rule.toList, isPathSpecial c = false
  paths : ∀ path ∈ b.outs ++ b.ins ++ b.implicit ++ b.orderOnly, path ≠ "" ∧ path ≠ "|" ∧ path ≠ "||"

/-- The words of a line. -/
theorem lexemes_head {b : BuildLine} (h : b.Readable) :
    lexemes b.head = .word "build" :: (b.outs.map .word ++ .colon :: .word b.rule ::
      (b.ins ++ marked "|" b.implicit ++ marked "||" b.orderOnly).map .word) := by
  have hne : ∀ path ∈ b.outs ++ b.ins ++ b.implicit ++ b.orderOnly, path ≠ "" :=
    fun path hpath => (h.paths path hpath).1
  simp only [List.forall_mem_append] at hne
  obtain ⟨⟨⟨houts, hins⟩, himplicit⟩, horderOnly⟩ := hne
  have hhead : b.head.toList = (escapePath "build").toList ++ ' ' :: ((pathList b.outs).toList ++ ':' :: ' ' ::
      ((escapePath b.rule).toList ++ ((optionalPart " " b.ins).toList ++ ((optionalPart " | " b.implicit).toList ++
        ((optionalPart " || " b.orderOnly).toList ++ []))))) := by
    rw [escapePath_of_plain h.plain, escapePath_of_plain (plain_of_all (by decide))]
    simp [BuildLine.head]
  -- each part starts with a space or is missing, so the part before it ends its last word
  have hlast : EndsWord ((optionalPart " || " b.orderOnly).toList ++ []) := endsWord_optionalPart rfl _ endsWord_nil
  have hmiddle : EndsWord ((optionalPart " | " b.implicit).toList ++ _) := endsWord_optionalPart rfl _ hlast
  have hfirst : EndsWord ((optionalPart " " b.ins).toList ++ _) := endsWord_optionalPart rfl _ hmiddle
  have hmark : " | " = " " ++ "|" ++ " " := by decide
  have hmark' : " || " = " " ++ "||" ++ " " := by decide
  rw [lexemes, hhead, lexemesFrom_escapePath (by decide) (endsWord_space _), lexemesFrom_space,
    lexemesFrom_pathList houts (endsWord_colon _), lexemesFrom_colon, lexemesFrom_space,
    lexemesFrom_escapePath h.rule hfirst, lexemesFrom_inputs hins hmiddle,
    lexemesFrom_marked hmark (by decide) (plain_of_all (by decide)) himplicit hlast,
    lexemesFrom_marked hmark' (by decide) (plain_of_all (by decide)) horderOnly endsWord_nil]
  simp [lexemesFrom, wordOf]

theorem splitAtMark_append_marked {mark : String} {before : List String} (h : ∀ path ∈ before, path ≠ mark)
    (after : List String) : splitAtMark mark (before ++ marked mark after) = (before, after) := by
  have hpass : ∀ path ∈ before, decide (path ≠ mark) = true := fun path hpath => decide_eq_true (h path hpath)
  unfold splitAtMark marked
  rw [List.takeWhile_append_of_pos hpass, List.dropWhile_append_of_pos hpass]
  by_cases hafter : after = []
  · simp [hafter]
  · simp [hafter]

theorem mapM_text? (paths : List String) : (paths.map Lexeme.word).mapM Lexeme.text? = some paths := by
  induction paths with
  | nil => rfl
  | cons path rest ih =>
    rw [List.map_cons, List.mapM_cons, ih]
    rfl

/-- The inputs of a line are told apart by the marks between them. -/
theorem BuildLine.Readable.splitAtMark {b : BuildLine} (h : b.Readable) :
    Ninja.splitAtMark "||" (b.ins ++ marked "|" b.implicit ++ marked "||" b.orderOnly) =
        (b.ins ++ marked "|" b.implicit, b.orderOnly) ∧
      Ninja.splitAtMark "|" (b.ins ++ marked "|" b.implicit) = (b.ins, b.implicit) := by
  have hpaths := h.paths
  simp only [List.forall_mem_append] at hpaths
  obtain ⟨⟨⟨-, hins⟩, himplicit⟩, -⟩ := hpaths
  have hmarked : ∀ path ∈ marked "|" b.implicit, path ≠ "||" := by
    unfold marked
    split
    case isTrue => nofun
    case isFalse => exact List.forall_mem_cons.mpr ⟨by decide, fun path hpath => (himplicit path hpath).2.2⟩
  have hbefore : ∀ path ∈ b.ins ++ marked "|" b.implicit, path ≠ "||" :=
    List.forall_mem_append.mpr ⟨fun path hpath => (hins path hpath).2.2, hmarked⟩
  exact ⟨splitAtMark_append_marked hbefore _, splitAtMark_append_marked (fun path hpath => (hins path hpath).2.1) _⟩

/-- **A line that can be taken apart is read as it was written.** -/
theorem BuildLine.read_head {b : BuildLine} (h : b.Readable) :
    BuildLine.read b.head = some { b with comments := [], bindings := [] } := by
  have hwords : ∀ path ∈ b.outs.map Lexeme.word, decide (path ≠ .colon) = true := by simp
  have htake (rest : List Lexeme) :
      (b.outs.map Lexeme.word ++ Lexeme.colon :: rest).takeWhile (· ≠ Lexeme.colon) = b.outs.map .word := by
    rw [List.takeWhile_append_of_pos hwords, List.takeWhile_cons_of_neg (by decide), List.append_nil]
  have hdrop (rest : List Lexeme) :
      (b.outs.map Lexeme.word ++ Lexeme.colon :: rest).dropWhile (· ≠ Lexeme.colon) = .colon :: rest := by
    rw [List.dropWhile_append_of_pos hwords, List.dropWhile_cons_of_neg (by decide)]
  obtain ⟨horderOnly, hinputs⟩ := h.splitAtMark
  unfold read
  rw [lexemes_head h]
  simp only [htake, hdrop, mapM_text?, Option.bind_eq_bind, Option.bind_some, horderOnly, hinputs]
  rfl

/-! ### Edges -/

/-- The names that are known are those of named rules, or have been made up. -/
structure Naming.Plausible (n : Naming) : Prop where
  named : ∀ {given name}, Assoc.find? n.known (.named given) = some name → name = given
  object : ∀ {id rule name}, Assoc.find? n.known (.object id rule) = some name → ∃ i, name = anonymousRuleName i

/-- The name that the build line of an edge has for its rule. -/
inductive NamedEdge.Named (m : NamedEdge) : Prop
  | given (hname : m.edge.rule.name ≠ "") (same : m.ruleName = m.edge.rule.name)
  | madeUp (hname : m.edge.rule.name = "") (i : Nat) (same : m.ruleName = anonymousRuleName i)

theorem Naming.Plausible.nameEdge {n : Naming} (h : n.Plausible) (e : Edge) :
    (n.nameEdge e).1.Plausible ∧ (n.nameEdge e).2.Named := by
  rcases n.nameEdge_cases e with ⟨key, name, hkey, hfound, hnamed⟩ | ⟨n', name, hnamed, -, hknown, hname⟩
  · rw [hnamed]
    refine ⟨h, ?_⟩
    cases key with
    | named given =>
      obtain ⟨hgiven, rfl⟩ := named_of_ruleKey? hkey
      exact .given hgiven (h.named hfound)
    | object id rule =>
      obtain ⟨hnone, -, -⟩ := object_of_ruleKey? hkey
      obtain ⟨i, hmade⟩ := h.object hfound
      exact .madeUp hnone i hmade
  · rw [hnamed]
    refine ⟨⟨fun {given name'} hfound => ?_, fun {id rule name'} hfound => ?_⟩, ?_⟩
    · rw [hknown] at hfound
      split at hfound
      case isTrue hkey =>
        cases hfound
        obtain ⟨hgiven, rfl⟩ := named_of_ruleKey? hkey
        rcases hname with ⟨-, hsame, -⟩ | ⟨hnone, -⟩
        · exact hsame
        · exact absurd hnone hgiven
      case isFalse => exact h.named hfound
    · rw [hknown] at hfound
      split at hfound
      case isTrue hkey =>
        cases hfound
        obtain ⟨hnone, -, -⟩ := object_of_ruleKey? hkey
        rcases hname with ⟨hgiven, -⟩ | ⟨-, hmade, -⟩
        · exact absurd hnone hgiven
        · exact ⟨_, hmade⟩
      case isFalse => exact h.object hfound
    · rcases hname with ⟨hgiven, hsame, -⟩ | ⟨hnone, hmade, -⟩
      · exact .given hgiven hsame
      · exact .madeUp hnone _ hmade

theorem Naming.Plausible.nameEdges {n : Naming} (h : n.Plausible) (edges : List Edge) :
    ∀ m ∈ (n.nameEdges edges).2, m.Named := by
  induction edges generalizing n with
  | nil => nofun
  | cons e rest ih => exact List.forall_mem_cons.mpr ⟨(h.nameEdge e).2, ih (h.nameEdge e).1⟩

theorem named_of_mem_namedEdges {g : Graph} {m : NamedEdge} (hm : m ∈ namedEdges g) : m.Named := by
  have hstart : ({} : Naming).Plausible := ⟨nofun, nofun⟩
  exact hstart.nameEdges g.sortedEdges m hm

theorem isPathSpecial_of_mem_anonymousRuleName {i : Nat} :
    ∀ c ∈ (anonymousRuleName i).toList, isPathSpecial c = false := by
  intro c hc
  rw [anonymousRuleName, String.toList_append] at hc
  rcases List.mem_append.mp hc with hc | hc
  · have hstart : ∀ c ∈ anonymousRuleStart.toList, isPathSpecial c = false := plain_of_all (by decide)
    exact hstart c hc
  · change c ∈ (Nat.repr i).toList at hc
    rw [Nat.toList_repr] at hc
    obtain ⟨d, hd, rfl⟩ := Text.exists_of_mem_toDigits (by omega) i hc
    have hdigits : ∀ d < 10, isPathSpecial (Nat.digitChar d) = false := by decide
    exact hdigits d hd

/-- The build line of an edge without its comments and variables. -/
def NamedEdge.line (m : NamedEdge) : BuildLine where
  outs := m.edge.outs.map Path.absolute
  rule := m.ruleName
  ins := m.edge.ins.map Path.absolute
  implicit := m.edge.implicit.map Path.absolute
  orderOnly := m.edge.orderOnly.map Path.absolute

theorem NamedEdge.Named.readable {m : NamedEdge} (h : m.Named)
    (hrule : ∀ c ∈ m.edge.rule.name.toList, isPathSpecial c = false)
    (hpaths : ∀ path ∈ m.edge.outs ++ m.edge.uses, path.absolute.toList.head? = some '/') : m.line.Readable := by
  have hname : m.ruleName ≠ "" ∧ ∀ c ∈ m.ruleName.toList, isPathSpecial c = false := by
    cases h with
    | given hname hsame => exact hsame ▸ ⟨hname, hrule⟩
    | madeUp _ i hsame =>
      refine hsame ▸ ⟨fun hempty => ?_, isPathSpecial_of_mem_anonymousRuleName⟩
      have hreserved := isReserved_anonymousRuleName i
      rw [hempty] at hreserved
      revert hreserved
      decide
  refine ⟨hname.1, hname.2, fun path hpath => ?_⟩
  have hslash : path.toList.head? = some '/' := by
    simp only [line, ← List.map_append, List.append_assoc] at hpath
    obtain ⟨p, hp, rfl⟩ := List.mem_map.mp hpath
    exact hpaths p (by simpa [Statement.uses] using hp)
  refine ⟨?_, ?_, ?_⟩ <;> (rintro rfl; revert hslash; decide)

/-- **The build line of an edge tells its paths and its rule.** All edges of a graph have their build lines among the
blocks of the graph. If the rule of the edge has no name or one that is a word, and the paths start with a slash, then
the line is read as the outputs, the rule, the inputs, the implicit ones and the order-only ones, whatever other
characters the paths have. -/
theorem namedEdges_readBack (g : Graph) :
    (namedEdges g).map (·.edge) = g.sortedEdges ∧
    ∀ m ∈ namedEdges g, ∃ line, m.buildBlock = .build line ∧ .build line ∈ blocks g ∧ m.Named ∧
      ((∀ c ∈ m.edge.rule.name.toList, isPathSpecial c = false) →
        (∀ path ∈ m.edge.outs ++ m.edge.uses, path.absolute.toList.head? = some '/') →
        BuildLine.read line.head = some m.line) := by
  refine ⟨map_edge_nameEdges _ _, fun m hm => ⟨_, rfl, ?_, named_of_mem_namedEdges hm, fun hrule hpaths => ?_⟩⟩
  · rw [blocks_eq]
    refine List.mem_cons_of_mem _ (List.mem_append_right _ (List.mem_append_left _ ?_))
    exact List.mem_map.mpr ⟨m, hm, rfl⟩
  · have hline := (named_of_mem_namedEdges hm).readable hrule hpaths
    exact BuildLine.read_head ⟨hline.rule, hline.plain, hline.paths⟩

/-- An edge with all characters in its paths that could mislead a reader. -/
def misleadingEdge : Edge where
  rule := { name := "cp-1.0", command := "cp $in $out" }
  outs := [.elsewhere "/a b: | c", .elsewhere "/$"]
  ins := []
  implicit := [.elsewhere "/ || $:", .elsewhere "/|"]
  orderOnly := [.elsewhere "/line\nfeed"]
  origin := .own
  traces := ["trace"]

theorem namedEdges_readBack_sample :
    let g : Graph := { edges := [misleadingEdge], directory := ⟨"/out", "", ""⟩ }
    ∃ line, .build line ∈ blocks g ∧
      BuildLine.read line.head =
        some
          { outs := ["/a b: | c", "/$"]
            rule := "cp-1.0"
            implicit := ["/ || $:", "/|"]
            orderOnly := ["/line\nfeed"] } := by
  intro g
  obtain ⟨hedges, hlines⟩ := namedEdges_readBack g
  have hmem : misleadingEdge ∈ (namedEdges g).map (·.edge) :=
    hedges ▸ Graph.mem_sortedEdges.mpr (List.mem_singleton_self _)
  obtain ⟨m, hm, hedge⟩ := List.mem_map.mp hmem
  obtain ⟨line, -, hline, hname, hread⟩ := hlines m hm
  rw [NamedEdge.line, hedge] at hread
  have hrule : m.ruleName = "cp-1.0" := by
    cases hname with
    | given _ hsame => rw [hsame, hedge]; rfl
    | madeUp hnone => rw [hedge] at hnone; exact absurd hnone (by decide)
  rw [hrule] at hread
  exact ⟨line, hline, hread (plain_of_all (by decide)) (by decide +kernel)⟩

end Ninja

end BuildPlan
