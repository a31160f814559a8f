import BuildPlan.Proofs.Ninja.BuildLine
import BuildPlan.Proofs.Ninja.LogicalLines
import BuildPlan.Proofs.Ninja.OutputNames

/-!
# Files that are read line by line as they are meant

Paths are escaped wherever they stand in a build line, line feeds and all. But a trace is written into a comment, the
name of a target into its descriptions and the printed paths into an `echo`, and there nothing is done about line feeds.
So if everything else is on one line each, a file has the lines that it is meant to have exactly if these three are, too:
`fileText_readsAsMeant_iff`. A path with a line feed breaks out of its line: `path_can_break_out`.
-/

namespace BuildPlan

namespace Ninja

open LinePlace

/-! ### The lines of a writer -/

/-- What a line of a file can look like. -/
inductive LineShape : String → Prop
  | blank : LineShape ""
  | comment (text : String) : LineShape ("# " ++ text)
  | rule (text : String) : LineShape ("rule " ++ text)
  | build (text : String) : LineShape ("build " ++ text)
  | binding (name value : String) : LineShape ("  " ++ name ++ " = " ++ value)

variable {line next mark : String} {below : List String}

theorem LineShape.append (h : LineShape line) (hne : line ≠ "") (more : String) : LineShape (line ++ more) := by
  cases h with
  | blank => exact absurd rfl hne
  | comment text => exact String.append_assoc ▸ .comment (text ++ more)
  | rule text => exact String.append_assoc ▸ .rule (text ++ more)
  | build text => exact String.append_assoc ▸ .build (text ++ more)
  | binding name value => exact String.append_assoc ▸ .binding name (value ++ more)

theorem LineShape.head? (h : LineShape line) :
    line.toList.head? = none ∨ line.toList.head? ∈ [some '#', some 'r', some 'b', some ' '] := by
  cases h <;> simp

theorem LineShape.closeLines (hline : LineShape line) (hbelow : ∀ next ∈ below, LineShape next) :
    ∀ read ∈ closeLines line below, LineShape read := by
  induction below generalizing line with
  | nil => exact List.forall_mem_singleton.mpr hline
  | cons next rest ih =>
    obtain ⟨hnext, hrest⟩ := List.forall_mem_cons.mp hbelow
    rw [Ninja.closeLines]
    split
    · next hopen =>
      have hne : line ≠ "" := by
        rintro rfl
        cases hopen
      exact ih (String.append_assoc ▸ hline.append hne _) hrest
    · exact List.forall_mem_cons.mpr ⟨hline, ih hnext hrest⟩

/-- The line starts with this mark. -/
def startsWith (mark line : String) : Bool := mark.toList.isPrefixOf line.toList

theorem startsWith_append (mark text : String) : startsWith mark (mark ++ text) = true := by
  simp [startsWith]

theorem startsWith_eq_false {c : Char} (hmark : mark.toList.head? = some c) (hline : line.toList.head? ≠ some c) :
    startsWith mark line = false := by
  obtain ⟨cs, hcs⟩ := List.head?_eq_some_iff.mp hmark
  rw [startsWith, hcs]
  cases hl : line.toList with
  | nil => rfl
  | cons d ds =>
    have hne : c ≠ d := fun heq => hline (hl ▸ congrArg some heq.symm)
    simp [List.isPrefixOf, hne]

theorem startsWith_join (hmark : '\n' ∉ mark.toList) (line next : String) :
    startsWith mark (line ++ "\n" ++ next) = startsWith mark line := by
  have hjoin : (line ++ "\n" ++ next).toList = line.toList ++ '\n' :: next.toList := by simp
  rw [startsWith, startsWith, Bool.eq_iff_iff, List.isPrefixOf_iff_prefix, List.isPrefixOf_iff_prefix, hjoin]
  refine ⟨fun h => ?_, fun h => h.trans (List.prefix_append _ _)⟩
  rcases List.prefix_or_prefix_of_prefix h (List.prefix_append _ _) with hpre | ⟨more, hmore⟩
  · exact hpre
  · -- a mark that is longer than the line would go on with the line feed
    rw [← hmore, List.prefix_append_right_inj, List.prefix_cons_iff] at h
    rcases h with rfl | ⟨rest, rfl, -⟩
    · rw [← hmore, List.append_nil]
    · exact absurd (hmore ▸ List.mem_append_right _ List.mem_cons_self) hmark

theorem countP_closeLines (hmark : '\n' ∉ mark.toList) (hbelow : ∀ next ∈ below, startsWith mark next = false) :
    (closeLines line below).countP (startsWith mark) = if startsWith mark line then 1 else 0 := by
  induction below generalizing line with
  | nil => rw [closeLines, List.countP_singleton]
  | cons next rest ih =>
    obtain ⟨hnext, hrest⟩ := List.forall_mem_cons.mp hbelow
    rw [closeLines]
    split
    · rw [ih hrest, startsWith_join hmark]
    · rw [List.countP_cons, ih hrest, hnext, if_neg Bool.false_ne_true, Nat.zero_add]

namespace Block

theorem shaped_lines (b : Block) : ∀ line ∈ b.lines, LineShape line := by
  have hhead : LineShape b.head := by
    cases b with
    | rule name bindings => exact .rule name
    | build b =>
      simp only [head, BuildLine.head, String.append_assoc]
      exact .build _
  have hbindings : ∀ line ∈ b.bindings.map bindingLine ++ [""], LineShape line := by
    refine List.forall_mem_append.mpr ⟨fun line hline => ?_, List.forall_mem_singleton.mpr .blank⟩
    obtain ⟨binding, -, rfl⟩ := List.mem_map.mp hline
    exact .binding binding.1 binding.2
  refine List.forall_mem_append.mpr ⟨fun line hline => ?_, hhead.closeLines hbindings⟩
  obtain ⟨comment, -, rfl⟩ := List.mem_map.mp hline
  exact .comment comment

theorem head?_head (b : Block) : b.head.toList.head? = some (if b.isBuild then 'b' else 'r') := by
  cases b with
  | rule name bindings => simp [head, isBuild]
  | build b => simp [head, isBuild, BuildLine.head]

variable {c : Char}

/-- Marks at the margin are those of the comments and of the line that says what the block is about. -/
theorem countP_lines (hmark : mark.toList.head? = some c) (hc : c ≠ ' ') (hline : '\n' ∉ mark.toList) (b : Block) :
    b.lines.countP (startsWith mark) =
      (b.comments.map commentLine).countP (startsWith mark) + if startsWith mark b.head then 1 else 0 := by
  have hbelow : ∀ next ∈ b.bindings.map bindingLine ++ [""], startsWith mark next = false := by
    refine List.forall_mem_append.mpr ⟨fun next hnext => ?_, List.forall_mem_singleton.mpr ?_⟩
    · obtain ⟨binding, -, rfl⟩ := List.mem_map.mp hnext
      exact startsWith_eq_false hmark (by simp [bindingLine, Ne.symm hc])
    · exact startsWith_eq_false hmark (by simp)
  rw [lines, List.countP_append, countP_closeLines hline hbelow]

theorem countP_comments_eq_zero (hmark : mark.toList.head? = some c) (hc : c ≠ '#') (comments : List String) :
    (comments.map commentLine).countP (startsWith mark) = 0 := by
  rw [List.countP_eq_zero]
  intro line hline
  obtain ⟨comment, -, rfl⟩ := List.mem_map.mp hline
  rw [startsWith_eq_false hmark (by simp [commentLine, Ne.symm hc])]
  exact Bool.false_ne_true

theorem startsWith_rule (b : Block) : startsWith "rule " b.head = !b.isBuild := by
  cases b with
  | rule name bindings => exact startsWith_append "rule " name
  | build b => exact startsWith_eq_false (c := 'r') rfl (by simp [head?_head, isBuild])

theorem startsWith_build (b : Block) : startsWith "build " b.head = b.isBuild := by
  cases b with
  | rule name bindings => exact startsWith_eq_false (c := 'b') rfl (by simp [head?_head, isBuild])
  | build b =>
    simp only [head, BuildLine.head, String.append_assoc]
    exact startsWith_append "build " _

end Block

theorem countP_heads {c : Char} (hmark : mark.toList.head? = some c) (hc : c ≠ ' ') (hcomment : c ≠ '#')
    (hline : '\n' ∉ mark.toList) (blocks : List Block) :
    (blocks.flatMap Block.lines).countP (startsWith mark) = blocks.countP fun b => startsWith mark b.head := by
  induction blocks with
  | nil => rfl
  | cons b rest ih =>
    rw [List.flatMap_cons, List.countP_append, ih, b.countP_lines hmark hc hline,
      Block.countP_comments_eq_zero hmark hcomment, List.countP_cons, Nat.zero_add, Nat.add_comm]

theorem countP_rules (blocks : List Block) :
    (blocks.flatMap Block.lines).countP (startsWith "rule ") = blocks.countP fun b => !b.isBuild := by
  rw [countP_heads (c := 'r') rfl (by decide) (by decide) (by decide)]
  simp only [Block.startsWith_rule]

theorem countP_builds (blocks : List Block) :
    (blocks.flatMap Block.lines).countP (startsWith "build ") = blocks.countP Block.isBuild := by
  rw [countP_heads (c := 'b') rfl (by decide) (by decide) (by decide)]
  simp only [Block.startsWith_build]

/-- The comment is about a trace. -/
def isTraceComment (comment : String) : Bool := startsWith "# trace: " (commentLine comment)

theorem countP_traces (blocks : List Block) :
    (blocks.flatMap Block.lines).countP (startsWith "# trace: ") =
      (blocks.flatMap Block.comments).countP isTraceComment := by
  induction blocks with
  | nil => rfl
  | cons b rest ih =>
    have hhead : startsWith "# trace: " b.head = false := by
      refine startsWith_eq_false (c := '#') rfl ?_
      rw [b.head?_head]
      split <;> decide
    rw [List.flatMap_cons, List.countP_append, ih, b.countP_lines (c := '#') rfl (by decide) (by decide), hhead,
      List.flatMap_cons, List.countP_append, List.countP_map]
    rfl

/-! ### What stands on one line -/

theorem isWhole_of_inside {start : List Char} {rest : String} (hline : line.toList = start ++ rest.toList)
    (hstart : LinePlace.start.through start = some .text) :
    isWhole line = (text.through rest.toList).isSome := by
  rw [isWhole, hline, through_append, hstart]
  rfl

theorem through_pathList (paths : List String) : text.through (pathList paths).toList = some .text := by
  induction paths with
  | nil => rfl
  | cons path others ih =>
    cases others with
    | nil => exact through_escapePath path
    | cons next others =>
      rw [toList_pathList_cons, through_append, through_escapePath]
      exact ih

theorem exists_through_optionalPart {place : LinePlace} (h : place.Inside) (mark : String) (paths : List String)
    (hmark : ∀ place : LinePlace, place.Inside → place.through mark.toList = some .text) :
    ∃ place', place'.Inside ∧ place.through (optionalPart mark paths).toList = some place' := by
  rw [optionalPart]
  split
  · exact ⟨place, h, rfl⟩
  · refine ⟨.text, .inl rfl, ?_⟩
    rw [String.toList_append, through_append, hmark place h]
    exact through_pathList paths

theorem BuildLine.isWhole_head {b : BuildLine} (hrule : '\n' ∉ b.rule.toList) : isWhole b.head = true := by
  have houts : LinePlace.start.through ("build " ++ pathList b.outs ++ ": ").toList = some .text := by
    have hbuild : LinePlace.start.through "build ".toList = some .text := rfl
    rw [String.toList_append, String.toList_append, through_append, through_append, hbuild, Option.bind_some,
      through_pathList]
    rfl
  obtain ⟨p, hp, hrule⟩ := Inside.exists_through (.inl rfl) hrule
  obtain ⟨q, hq, hins⟩ := exists_through_optionalPart hp " " b.ins (by rintro _ (rfl | rfl) <;> rfl)
  obtain ⟨r, hr, himplicit⟩ :=
    exists_through_optionalPart hq " | " b.implicit (by rintro _ (rfl | rfl) <;> rfl)
  obtain ⟨s, -, horderOnly⟩ :=
    exists_through_optionalPart hr " || " b.orderOnly (by rintro _ (rfl | rfl) <;> rfl)
  rw [isWhole, BuildLine.head, String.toList_append, String.toList_append, String.toList_append, String.toList_append,
    through_append, through_append, through_append, through_append, houts, Option.bind_some, hrule, Option.bind_some,
    hins, Option.bind_some, himplicit, Option.bind_some, horderOnly]
  rfl

theorem isWhole_rule {name : String} (hname : '\n' ∉ name.toList) : isWhole ("rule " ++ name) = true := by
  obtain ⟨place, -, hplace⟩ := Inside.exists_through (.inl rfl) hname
  rw [isWhole_of_inside (String.toList_append ..) rfl, hplace]
  rfl

theorem isWhole_bindingLine {name : String} (hname : '\n' ∉ name.toList) (value : String) :
    isWhole (bindingLine (name, value)) = (text.through value.toList).isSome := by
  obtain ⟨place, hinside, hplace⟩ := Inside.exists_through (.inl rfl) hname
  have hequals : place.through " = ".toList = some .text := by rcases hinside with rfl | rfl <;> rfl
  have hstart : LinePlace.start.through ("  " ++ name ++ " = ").toList = some .text := by
    have hindent : LinePlace.start.through "  ".toList = some .text := rfl
    rw [String.toList_append, String.toList_append, through_append, through_append, hindent, Option.bind_some, hplace,
      Option.bind_some, hequals]
  exact isWhole_of_inside (String.toList_append ..) hstart

theorem isSome_through_of_notMem {text : String} (h : '\n' ∉ text.toList) :
    (LinePlace.text.through text.toList).isSome = true := by
  obtain ⟨place, -, hplace⟩ := Inside.exists_through (.inl rfl) h
  exact Option.isSome_iff_exists.mpr ⟨place, hplace⟩

theorem mem_intercalate_iff {c : Char} {separator : String} (hc : c ∉ separator.toList) (lines : List String) :
    c ∈ (separator.intercalate lines).toList ↔ ∃ line ∈ lines, c ∈ line.toList := by
  induction lines with
  | nil => simp
  | cons line rest ih =>
    by_cases hrest : rest = []
    · subst hrest
      simp [String.intercalate_singleton]
    · rw [String.intercalate_cons_of_ne_nil hrest, String.toList_append, String.toList_append, List.mem_append,
        List.mem_append, ih]
      simp [hc]

/-- An `echo` is on one line exactly if all that it shows are. -/
theorem through_echoCommand (lines : List String) :
    (text.through (echoCommand lines).toList).isSome = true ↔ ∀ line ∈ lines, '\n' ∉ line.toList := by
  have hquoted : '\n' ∈ ("echo \"" ++ quotedLines lines ++ "\"").toList ↔ ∃ line ∈ lines, '\n' ∈ line.toList := by
    have hescape : ∀ c, '\n' ∈ Shell.escapeQuote c ↔ '\n' = c := by
      intro c
      rw [Shell.escapeQuote]
      split
      · next hc => simp [hc]
      · exact List.mem_singleton
    have hseparator : '\n' ∉ "\\n".toList := by decide
    rw [← mem_intercalate_iff hseparator, String.toList_append, String.toList_append, toList_quotedLines]
    simp [hescape]
  rw [echoCommand_eq, escapeValue, String.toList_ofList, through_escapeValue]
  split
  · next h =>
    obtain ⟨line, hline, hmem⟩ := hquoted.mp h
    exact iff_of_false Bool.false_ne_true fun hlines => hlines line hline hmem
  · next h => exact iff_of_true rfl fun line hline hmem => h (hquoted.mpr ⟨line, hline, hmem⟩)

theorem through_caption {verb : String} (hverb : text.through verb.toList = some .text) (name : String) :
    (text.through (verb ++ name ++ ":").toList).isSome = (text.through name.toList).isSome := by
  rw [String.toList_append, String.toList_append, through_append, through_append, hverb, Option.bind_some]
  cases text.through name.toList with
  | none => rfl
  | some place => cases place <;> rfl

theorem notMem_toString (n : Nat) : '\n' ∉ (toString n).toList := by
  intro h
  change '\n' ∈ (Nat.repr n).toList at h
  rw [Nat.toList_repr] at h
  obtain ⟨d, hd, hdigit⟩ := Text.exists_of_mem_toDigits (by omega) n h
  have hdigits : ∀ d < 10, Nat.digitChar d ≠ '\n' := by decide
  exact hdigits d hd hdigit.symm

/-! ### Blocks on one line each -/

namespace Block

theorem fits_rule_iff {name : String} (hname : '\n' ∉ name.toList) (bindings : List (String × String)) :
    (rule name bindings).Fits ↔ ∀ binding ∈ bindings, isWhole (bindingLine binding) = true :=
  ⟨fun h => h.bindings, fun h => ⟨nofun, isWhole_rule hname, h⟩⟩

theorem fits_build_iff {b : BuildLine} (hrule : '\n' ∉ b.rule.toList) :
    (build b).Fits ↔ (∀ comment ∈ b.comments, '\n' ∉ comment.toList) ∧
      ∀ binding ∈ b.bindings, isWhole (bindingLine binding) = true :=
  ⟨fun h => ⟨h.comments, h.bindings⟩, fun h => ⟨h.1, BuildLine.isWhole_head hrule, h.2⟩⟩

theorem fits_plainLine {outs ins : List String} {ruleName : String} (hrule : '\n' ∉ ruleName.toList) :
    (build { outs, rule := ruleName, ins }).Fits where
  comments := nofun
  head := BuildLine.isWhole_head hrule
  bindings := nofun

end Block

theorem notMem_anonymousRuleName (i : Nat) : '\n' ∉ (anonymousRuleName i).toList := by
  intro h
  have hplain := isPathSpecial_of_mem_anonymousRuleName _ h
  cases hplain

/-- A variable has its name and its value on one line. -/
def OnOneLine (binding : String × String) : Prop := '\n' ∉ binding.1.toList ∧ '\n' ∉ binding.2.toList

instance (binding : String × String) : Decidable (OnOneLine binding) := inferInstanceAs (Decidable (_ ∧ _))

theorem OnOneLine.isWhole {binding : String × String} (h : OnOneLine binding) : isWhole (bindingLine binding) = true := by
  rw [isWhole_bindingLine h.1]
  exact isSome_through_of_notMem h.2

/-- Names and values of variables, names of rules and commands of users are on one line. Nothing is said of paths, traces
and names of targets. -/
structure OneLined (g : Graph) : Prop where
  names : ∀ e ∈ g.edges, '\n' ∉ e.rule.name.toList
  bindings : ∀ e ∈ g.edges, ∀ binding ∈ e.rule.block ++ e.bindings, OnOneLine binding
  commands : ∀ t ∈ g.targetRules, ∀ command ∈ t.run.toList ++ t.test.toList, '\n' ∉ command.toList

instance (g : Graph) : Decidable (OneLined g) :=
  decidable_of_iff ((∀ e ∈ g.edges, '\n' ∉ e.rule.name.toList) ∧
      (∀ e ∈ g.edges, ∀ binding ∈ e.rule.block ++ e.bindings, OnOneLine binding) ∧
      ∀ t ∈ g.targetRules, ∀ command ∈ t.run.toList ++ t.test.toList, '\n' ∉ command.toList)
    ⟨fun ⟨names, bindings, commands⟩ => ⟨names, bindings, commands⟩, fun h => ⟨h.names, h.bindings, h.commands⟩⟩

/-- What is written without an escape is on one line: the traces that are shown, and what targets print. In the name of a
target, which stands in the value of a variable, a line feed can be protected by a dollar sign. -/
structure Unbroken (g : Graph) : Prop where
  traces : ∀ e ∈ g.edges, ∀ trace ∈ e.traces.take maxTraces, '\n' ∉ trace.toList
  printed : ∀ t ∈ g.targetRules, ∀ line ∈ t.printed, '\n' ∉ line.toList
  names : ∀ t ∈ g.targetRules, (text.through t.name.toList).isSome = true

instance (g : Graph) : Decidable (Unbroken g) :=
  decidable_of_iff ((∀ e ∈ g.edges, ∀ trace ∈ e.traces.take maxTraces, '\n' ∉ trace.toList) ∧
      (∀ t ∈ g.targetRules, ∀ line ∈ t.printed, '\n' ∉ line.toList) ∧
      ∀ t ∈ g.targetRules, (text.through t.name.toList).isSome = true)
    ⟨fun ⟨traces, printed, names⟩ => ⟨traces, printed, names⟩, fun h => ⟨h.traces, h.printed, h.names⟩⟩

theorem forall_traceComments_iff (traces : List String) :
    (∀ comment ∈ traceComments traces, '\n' ∉ comment.toList) ↔ ∀ trace ∈ traces.take maxTraces, '\n' ∉ trace.toList := by
  have hmore : ∀ comment ∈ (if maxTraces < traces.length then
      ["... and " ++ toString (traces.length - maxTraces) ++ " more traces"] else []), '\n' ∉ comment.toList := by
    split
    · refine List.forall_mem_singleton.mpr ?_
      simpa using notMem_toString (traces.length - maxTraces)
    · nofun
  rw [traceComments, List.forall_mem_append, and_iff_left hmore, List.forall_mem_map]
  simp

section Edges

variable {g : Graph} {m : NamedEdge}

theorem OneLined.notMem_ruleName (h : OneLined g) (hm : m ∈ namedEdges g) : '\n' ∉ m.ruleName.toList := by
  cases named_of_mem_namedEdges hm with
  | given _ same => exact same ▸ h.names m.edge (edge_mem hm)
  | madeUp _ i same => exact same ▸ notMem_anonymousRuleName i

theorem OneLined.fits_ruleBlock (h : OneLined g) (hm : m ∈ namedEdges g) : ∀ b ∈ m.ruleBlock?, b.Fits := by
  intro b hb
  rw [NamedEdge.ruleBlock?] at hb
  split at hb
  · cases hb
    refine (Block.fits_rule_iff (h.notMem_ruleName hm) _).mpr fun binding hbinding => ?_
    exact (h.bindings m.edge (edge_mem hm) binding (List.mem_append_left _ hbinding)).isWhole
  · cases hb

theorem OneLined.fits_buildBlock_iff (h : OneLined g) (hm : m ∈ namedEdges g) :
    m.buildBlock.Fits ↔ ∀ trace ∈ m.edge.traces.take maxTraces, '\n' ∉ trace.toList := by
  have hdepfile : ∀ binding ∈ (m.edge.depfile.map fun path => ("depfile", escapePath path.absolute)).toList,
      isWhole (bindingLine binding) = true := by
    intro binding hbinding
    obtain ⟨path, -, rfl⟩ := Option.map_eq_some_iff.mp (Option.mem_toList.mp hbinding)
    rw [isWhole_bindingLine (by decide), through_escapePath]
    rfl
  have hbindings : ∀ binding ∈ m.edge.bindings, isWhole (bindingLine binding) = true := fun binding hbinding =>
    (h.bindings m.edge (edge_mem hm) binding (List.mem_append_right _ hbinding)).isWhole
  refine (Block.fits_build_iff (h.notMem_ruleName hm)).trans ?_
  rw [and_iff_left (List.forall_mem_append.mpr ⟨hdepfile, hbindings⟩), forall_traceComments_iff]

end Edges

section Targets

variable {t : TargetRule} {command : String}

theorem isWhole_caption {verb : String} (hverb : text.through verb.toList = some .text) (name : String) :
    isWhole (bindingLine ("description", verb ++ name ++ ":")) = (text.through name.toList).isSome :=
  (isWhole_bindingLine (by decide) _).trans (through_caption hverb name)

theorem fits_extraBlocks_iff (hcommand : '\n' ∉ command.toList) {name extra verb ruleName : String}
    (hverb : text.through (verb ++ " ").toList = some .text) (hrule : '\n' ∉ ruleName.toList) :
    (∀ b ∈ extraBlocks name extra verb command ruleName, b.Fits) ↔ (text.through name.toList).isSome = true := by
  have hwritten : isWhole (bindingLine ("command", command)) = true :=
    (isWhole_bindingLine (by decide) command).trans (isSome_through_of_notMem hcommand)
  have hpool : isWhole (bindingLine ("pool", "console")) = true := by decide
  rw [extraBlocks, List.forall_mem_cons, List.forall_mem_singleton, and_iff_left (Block.fits_plainLine hrule),
    Block.fits_rule_iff hrule, List.forall_mem_cons, List.forall_mem_cons, List.forall_mem_singleton,
    isWhole_caption hverb]
  simp [hwritten, hpool]

theorem fits_extras {made : Option String} {name extra verb ruleName : String}
    (hname : (text.through name.toList).isSome = true) (hmade : ∀ command ∈ made.toList, '\n' ∉ command.toList)
    (hverb : text.through (verb ++ " ").toList = some .text) (hrule : '\n' ∉ ruleName.toList) :
    ∀ b ∈ (made.map fun command => extraBlocks name extra verb command ruleName).getD [], b.Fits := by
  cases made with
  | none => nofun
  | some command => exact (fits_extraBlocks_iff (hmade command (.head _)) hverb hrule).mpr hname

theorem fits_shown_iff {name ruleName : String} (printed ins : List String) (hrule : '\n' ∉ ruleName.toList) :
    (∀ b ∈ [Block.rule ruleName [("command", echoCommand printed), ("description", "Created " ++ name ++ ":")],
      .build { outs := [name], rule := ruleName, ins }], b.Fits) ↔
      (∀ line ∈ printed, '\n' ∉ line.toList) ∧ (text.through name.toList).isSome = true := by
  have hechoes : isWhole (bindingLine ("command", echoCommand printed)) = true ↔ ∀ line ∈ printed, '\n' ∉ line.toList := by
    rw [isWhole_bindingLine (by decide), through_echoCommand]
  rw [List.forall_mem_cons, List.forall_mem_singleton, and_iff_left (Block.fits_plainLine hrule),
    Block.fits_rule_iff hrule, List.forall_mem_cons, List.forall_mem_singleton, hechoes, isWhole_caption rfl]

/-- The blocks of a target are on one line each exactly if its name is, and what it prints. -/
theorem fits_targetBlocks_iff (hcommands : ∀ command ∈ t.run.toList ++ t.test.toList, '\n' ∉ command.toList)
    (next : Nat) :
    (∀ b ∈ targetBlocks t next, b.Fits) ↔
      (∀ line ∈ t.printed, '\n' ∉ line.toList) ∧ (text.through t.name.toList).isSome = true := by
  obtain ⟨hrun, htest⟩ := List.forall_mem_append.mp hcommands
  rw [targetBlocks, List.forall_mem_append, List.forall_mem_append,
    fits_shown_iff t.printed _ (notMem_anonymousRuleName next)]
  constructor
  · rintro ⟨⟨h, -⟩, -⟩
    exact h
  · intro h
    exact ⟨⟨h, fits_extras h.2 hrun rfl (notMem_anonymousRuleName _)⟩,
      fits_extras h.2 htest rfl (notMem_anonymousRuleName _)⟩

theorem forall_targetsBlocks_iff {P : Block → Prop} {Q : TargetRule → Prop} {targets : List TargetRule}
    (h : ∀ t ∈ targets, ∀ next, (∀ b ∈ targetBlocks t next, P b) ↔ Q t) (next : Nat) :
    (∀ b ∈ targetsBlocks targets next, P b) ↔ ∀ t ∈ targets, Q t := by
  induction targets generalizing next with
  | nil => exact iff_of_true nofun nofun
  | cons t rest ih =>
    obtain ⟨ht, hrest⟩ := List.forall_mem_cons.mp h
    rw [targetsBlocks, List.forall_mem_append, List.forall_mem_cons, ht next, ih hrest]

end Targets

/-! ### Files of graphs -/

variable {g : Graph}

theorem map_edge_namedEdges (g : Graph) : (namedEdges g).map (·.edge) = g.sortedEdges := map_edge_nameEdges _ _

theorem forall_edges_iff {P : Edge → Prop} : (∀ e ∈ g.edges, P e) ↔ ∀ m ∈ namedEdges g, P m.edge := by
  have hedges : (∀ e ∈ g.edges, P e) ↔ ∀ e ∈ (namedEdges g).map (·.edge), P e := by
    rw [map_edge_namedEdges]
    exact forall_congr' fun e => imp_congr_left Graph.mem_sortedEdges.symm
  rw [hedges, List.forall_mem_map]

/-- **The blocks of a file are on one line each exactly if what is written without an escape is.** -/
theorem OneLined.fits_iff (h : OneLined g) : (∀ b ∈ blocks g, b.Fits) ↔ Unbroken g := by
  have hanchor : anchorBlock.Fits := Block.fits_plainLine (by decide)
  have hrules : ∀ b ∈ (namedEdges g).filterMap NamedEdge.ruleBlock?, b.Fits := by
    intro b hb
    obtain ⟨m, hm, hblock⟩ := List.mem_filterMap.mp hb
    exact h.fits_ruleBlock hm b hblock
  have hbuilds : (∀ b ∈ (namedEdges g).map NamedEdge.buildBlock, b.Fits) ↔
      ∀ e ∈ g.edges, ∀ trace ∈ e.traces.take maxTraces, '\n' ∉ trace.toList := by
    rw [List.forall_mem_map, forall_edges_iff]
    exact forall₂_congr fun m hm => h.fits_buildBlock_iff hm
  have htargets := forall_targetsBlocks_iff (fun t ht => fits_targetBlocks_iff (h.commands t ht)) (naming g).next
  rw [blocks_eq, List.forall_mem_cons, List.forall_mem_append, List.forall_mem_append, hbuilds]
  constructor
  · rintro ⟨-, -, htraces, hlast⟩
    have hunbroken := htargets.mp hlast
    exact ⟨htraces, fun t ht => (hunbroken t ht).1, fun t ht => (hunbroken t ht).2⟩
  · intro hunbroken
    exact ⟨hanchor, hrules, hunbroken.traces, htargets.mpr fun t ht => ⟨hunbroken.printed t ht, hunbroken.names t ht⟩⟩

theorem comments_of_mem_targetsBlocks {targets : List TargetRule} (next : Nat) :
    ∀ b ∈ targetsBlocks targets next, b.comments = [] := by
  have hblocks : ∀ t ∈ targets, ∀ next, (∀ b ∈ targetBlocks t next, b.comments = []) ↔ True := by
    intro t _ next
    rw [iff_true]
    unfold targetBlocks
    cases t.run <;> cases t.test <;> simp [extraBlocks, Block.comments]
  exact (forall_targetsBlocks_iff hblocks next).mpr fun _ _ => trivial

/-- The comments of a file are about the traces of edges. -/
theorem comments_blocks (g : Graph) :
    (blocks g).flatMap Block.comments = g.sortedEdges.flatMap fun e => traceComments e.traces := by
  have hrules : ∀ b ∈ (namedEdges g).filterMap NamedEdge.ruleBlock?, b.comments = [] := by
    intro b hb
    have hrule := isBuild_of_mem_ruleBlocks b hb
    cases b with
    | rule name bindings => rfl
    | build b => cases hrule
  have hlast : ∀ b ∈ lastBlocks g, b.comments = [] := comments_of_mem_targetsBlocks _
  have hbuilds : ((namedEdges g).map NamedEdge.buildBlock).flatMap Block.comments =
      g.sortedEdges.flatMap fun e => traceComments e.traces := by
    rw [← map_edge_namedEdges, List.flatMap_map, List.flatMap_map]
    rfl
  rw [blocks_eq, List.flatMap_cons, List.flatMap_append, List.flatMap_append, List.flatMap_eq_nil_iff.mpr hrules,
    List.flatMap_eq_nil_iff.mpr hlast, hbuilds, List.nil_append, List.append_nil]
  rfl

theorem countP_traceComments (traces : List String) :
    (traceComments traces).countP isTraceComment = (traces.take maxTraces).length := by
  have hshown : ∀ trace : String, isTraceComment ("trace: " ++ trace) = true := startsWith_append "# trace: "
  have hmore : ((if maxTraces < traces.length then
      ["... and " ++ toString (traces.length - maxTraces) ++ " more traces"] else []).countP isTraceComment) = 0 := by
    split
    · simp [isTraceComment, commentLine, startsWith]
    · rfl
  rw [traceComments, List.countP_append, hmore, List.countP_map, Nat.add_zero]
  exact List.countP_eq_length.mpr fun trace _ => hshown trace

theorem countP_flatMap_traceComments (edges : List Edge) :
    (edges.flatMap fun e => traceComments e.traces).countP isTraceComment =
      (edges.flatMap fun e => e.traces.take maxTraces).length := by
  induction edges with
  | nil => rfl
  | cons e rest ih =>
    rw [List.flatMap_cons, List.flatMap_cons, List.countP_append, List.length_append, countP_traceComments, ih]

/-- A file is read line by line as it is meant. -/
structure ReadsAsMeant (g : Graph) : Prop where
  /-- Its lines are those of its blocks. -/
  lines : logicalLines (fileText g) = (blocks g).flatMap Block.lines
  /-- Nothing else is at the beginning of a line than what a writer puts there. -/
  shapes : ∀ line ∈ logicalLines (fileText g), LineShape line
  rules : (logicalLines (fileText g)).countP (startsWith "rule ") = (blocks g).countP fun b => !b.isBuild
  builds : (logicalLines (fileText g)).countP (startsWith "build ") = (blocks g).countP Block.isBuild
  /-- The traces are those of the edges, ten of each at most. -/
  traces : (logicalLines (fileText g)).countP (startsWith "# trace: ") =
    (g.sortedEdges.flatMap fun e => e.traces.take maxTraces).length

/-- **A file in which all else is on one line is read as it is meant exactly if nothing breaks out of its line.** -/
theorem fileText_readsAsMeant_iff (g : Graph) (h : OneLined g) : ReadsAsMeant g ↔ Unbroken g := by
  rw [← h.fits_iff, ← logicalLines_render_iff]
  refine ⟨ReadsAsMeant.lines, fun hlines => ?_⟩
  change logicalLines (fileText g) = _ at hlines
  refine ⟨hlines, ?_, ?_, ?_, ?_⟩
  · rw [hlines]
    intro line hline
    obtain ⟨b, -, hb⟩ := List.mem_flatMap.mp hline
    exact b.shaped_lines line hb
  · rw [hlines, countP_rules]
  · rw [hlines, countP_builds]
  · rw [hlines, countP_traces, comments_blocks, countP_flatMap_traceComments]

theorem fileText_readsAsMeant_sample : ∃ g s, finalGraph (makes "a" ["b c"]) ((makes "a" ["b c"]).start {}) = .ok g s ∧
    OneLined g ∧ ReadsAsMeant g := by
  have hanswer : (answer (finalGraph (makes "a" ["b c"])) ((makes "a" ["b c"]).start {})).toOption.map
      (fun g => decide (OneLined g ∧ Unbroken g)) = some true := by decide +kernel
  obtain ⟨g, s, hrun, hdecide⟩ := exists_of_answer hanswer
  obtain ⟨hone, hunbroken⟩ := of_decide_eq_true hdecide
  exact ⟨g, s, hrun, hone, (fileText_readsAsMeant_iff g hone).mpr hunbroken⟩

/-- The path of a file with a line feed breaks out of the line that shows it, though all else is on one line. -/
theorem path_can_break_out : ∃ g s, finalGraph (makes "a\nc" []) ((makes "a\nc" []).start {}) = .ok g s ∧
    OneLined g ∧ ¬(∀ line ∈ logicalLines (fileText g), LineShape line) := by
  have hanswer : (answer (finalGraph (makes "a\nc" [])) ((makes "a\nc" []).start {})).toOption.map
      (fun g => decide (OneLined g ∧
        "c\"" ∈ linesFrom .start [] ((blocks g).flatMap fun b => b.written.flatMap fun line => line.toList ++ ['\n']))) =
      some true := by decide +kernel
  obtain ⟨g, s, hrun, hdecide⟩ := exists_of_answer hanswer
  obtain ⟨hone, hline⟩ := of_decide_eq_true hdecide
  rw [← toList_render] at hline
  refine ⟨g, s, hrun, hone, fun hshapes => ?_⟩
  exact absurd (hshapes _ hline).head? (by decide)

end Ninja

end BuildPlan
