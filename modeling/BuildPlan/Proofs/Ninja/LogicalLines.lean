import BuildPlan.Proofs.Ninja.EchoCommands

/-!
# The lines of a Ninja file

Ninja goes on with a line when its last character is a dollar sign that protects the line feed, so a line is more than
what stands between two line feeds. `logicalLines` cuts a text in this way, and `Block.lines` has the lines that a block
is meant to be. They agree exactly if no line ends inside of what was to be one line: `logicalLines_render_iff`.
-/

namespace BuildPlan.Ninja

/-! ### Reading lines -/

/-- Where the reader of a file stands in a line. -/
inductive LinePlace where
  | start
  /-- In a line that starts with a number sign, where a dollar sign is like any other character. -/
  | comment
  | text
  /-- Behind a dollar sign that protects the next character. -/
  | dollar
  deriving DecidableEq

namespace LinePlace

variable {place place' : LinePlace} {c : Char} {cs : List Char}

/-- Where the reader stands behind one more character of a line. -/
def step : LinePlace → Char → LinePlace
  | .start, c => if c = '#' then .comment else if c = '$' then .dollar else .text
  | .comment, _ => .comment
  | .text, c => if c = '$' then .dollar else .text
  | .dollar, _ => .text

/-- The character ends the line. -/
def ends (place : LinePlace) (c : Char) : Bool := c = '\n' && place ≠ .dollar

/-- Where the reader stands behind a text, unless a line ends in it. -/
@[simp] def through (place : LinePlace) : List Char → Option LinePlace
  | [] => some place
  | c :: rest => if place.ends c then none else (place.step c).through rest

/-- The reader stands in a line that is not a comment. -/
def Inside (place : LinePlace) : Prop := place = .text ∨ place = .dollar

theorem through_append (place : LinePlace) (cs rest : List Char) :
    place.through (cs ++ rest) = (place.through cs).bind (·.through rest) := by
  induction cs generalizing place with
  | nil => rfl
  | cons c cs ih =>
    rw [List.cons_append, through, through]
    split
    · rfl
    · exact ih _

theorem ends_eq_false (h : c ≠ '\n') (place : LinePlace) : place.ends c = false := by
  simp [ends, h]

theorem Inside.step (h : place.Inside) (c : Char) : (place.step c).Inside := by
  rcases h with rfl | rfl
  · by_cases hc : c = '$'
    · exact .inr (if_pos hc)
    · exact .inl (if_neg hc)
  · exact .inl rfl

theorem Inside.exists_through (h : place.Inside) (hcs : '\n' ∉ cs) :
    ∃ place', place'.Inside ∧ place.through cs = some place' := by
  induction cs generalizing place with
  | nil => exact ⟨place, h, rfl⟩
  | cons c cs ih =>
    have hc : c ≠ '\n' := fun heq => hcs (heq ▸ List.mem_cons_self)
    have hrest : '\n' ∉ cs := fun hmem => hcs (List.mem_cons_of_mem _ hmem)
    rw [through, ends_eq_false hc, if_neg Bool.false_ne_true]
    exact ih (h.step c) hrest

theorem through_comment (cs : List Char) : (comment.through cs).isSome = true ↔ '\n' ∉ cs := by
  induction cs with
  | nil => simp [through]
  | cons c cs ih =>
    by_cases hc : c = '\n'
    · subst hc
      simp [through, ends]
    · rw [through, ends_eq_false hc, if_neg Bool.false_ne_true]
      change (comment.through cs).isSome = true ↔ _
      rw [ih, List.mem_cons, not_or]
      exact ⟨fun h => ⟨Ne.symm hc, h⟩, And.right⟩

theorem isSome_through_start (h : cs.head? ≠ some '#') :
    (start.through cs).isSome = (text.through cs).isSome := by
  cases cs with
  | nil => rfl
  | cons c cs =>
    have hc : c ≠ '#' := fun heq => h (congrArg some heq)
    have hstep : start.step c = text.step c := if_neg hc
    have hends : start.ends c = text.ends c := rfl
    rw [through, through, hstep, hends]

theorem through_escapePath (path : String) : text.through (escapePath path).toList = some .text := by
  rw [escapePath, String.toList_ofList]
  induction path.toList with
  | nil => rfl
  | cons c cs ih =>
    rw [List.flatMap_cons, through_append, escapePathChar]
    by_cases hc : isPathSpecial c = true
    · rw [if_pos hc]
      have hpair : text.through ['$', c] = some .text := by simp [through, ends, LinePlace.step]
      rw [hpair]
      exact ih
    · rw [if_neg hc]
      simp only [isPathSpecial, Bool.or_eq_true, decide_eq_true_eq, not_or] at hc
      obtain ⟨⟨⟨-, hline⟩, -⟩, hdollar⟩ := hc
      have hsingle : text.through [c] = some .text := by simp [through, ends, LinePlace.step, hline, hdollar]
      rw [hsingle]
      exact ih

/-- A text that has been escaped as a value goes on with the line exactly if it has no line feeds. -/
theorem through_escapeValue (cs : List Char) :
    text.through (cs.flatMap escapeValueChar) = if '\n' ∈ cs then none else some .text := by
  induction cs with
  | nil => rfl
  | cons c cs ih =>
    rw [List.flatMap_cons, through_append, escapeValueChar]
    by_cases hdollar : c = '$'
    · subst hdollar
      have hpair : text.through ['$', '$'] = some .text := rfl
      rw [if_pos rfl, hpair]
      simpa using ih
    · rw [if_neg hdollar]
      by_cases hline : c = '\n'
      · subst hline
        simp [through, ends]
      · have hsingle : text.through [c] = some .text := by simp [through, ends, LinePlace.step, hline, hdollar]
        rw [hsingle]
        simpa [Ne.symm hline] using ih

end LinePlace

open LinePlace

/-- The rest of a file by lines, where `word` has what has been read of the first one, its last character first. -/
def linesFrom (place : LinePlace) (word : List Char) : List Char → List String
  | [] => if word = [] then [] else [String.ofList word.reverse]
  | c :: rest =>
    if place.ends c then String.ofList word.reverse :: linesFrom .start [] rest
    else linesFrom (place.step c) (c :: word) rest

/-- The lines of a file as Ninja reads them. A line feed behind an open dollar sign is a part of the line. -/
def logicalLines (text : String) : List String := linesFrom .start [] text.toList

/-- No line ends in the text. -/
def isWhole (line : String) : Bool := (start.through line.toList).isSome

/-- The line goes on below. -/
def isOpen (line : String) : Bool := start.through line.toList = some .dollar

variable {line next : String} {below : List String}

theorem linesFrom_through {place place' : LinePlace} {cs : List Char} (h : place.through cs = some place')
    (word rest : List Char) :
    linesFrom place word (cs ++ rest) = linesFrom place' (cs.reverse ++ word) rest := by
  induction cs generalizing place word with
  | nil =>
    cases h
    rfl
  | cons c cs ih =>
    rw [through] at h
    split at h
    · cases h
    · next hends =>
      rw [List.cons_append, linesFrom, if_neg hends, ih h, List.reverse_cons, List.append_assoc, List.singleton_append]

theorem isWhole_of_mem_linesFrom {place : LinePlace} {word cs : List Char}
    (hword : start.through word.reverse = some place) : ∀ line ∈ linesFrom place word cs, isWhole line = true := by
  have hread : isWhole (String.ofList word.reverse) = true := by
    rw [isWhole, String.toList_ofList, hword]
    rfl
  -- the reader always stands where what has been read of the line leads
  induction cs generalizing place word with
  | nil =>
    rw [linesFrom]
    split
    · nofun
    · exact List.forall_mem_singleton.mpr hread
  | cons c cs ih =>
    rw [linesFrom]
    split
    · exact List.forall_mem_cons.mpr ⟨hread, ih rfl rfl⟩
    · next hends =>
      have hnext : start.through (c :: word).reverse = some (place.step c) := by
        rw [List.reverse_cons, through_append, hword, Option.bind_some, through, if_neg hends]
        rfl
      refine ih hnext ?_
      rw [isWhole, String.toList_ofList, hnext]
      rfl

/-! ### Lines that go on -/

/-- Lines that stand below each other as they are read. -/
def closeLines (line : String) : List String → List String
  | [] => [line]
  | next :: rest => if isOpen line then closeLines (line ++ "\n" ++ next) rest else line :: closeLines next rest

/-- Some lines, each with its line feed. -/
def linesText (lines : List String) : String := String.join (lines.map (· ++ "\n"))

theorem toList_linesText_cons (line : String) (lines : List String) :
    (linesText (line :: lines)).toList = line.toList ++ '\n' :: (linesText lines).toList := by
  simp [linesText]

theorem linesText_append (lines more : List String) : linesText (lines ++ more) = linesText lines ++ linesText more := by
  simp [linesText]

theorem toList_linesText (lines : List String) :
    (linesText lines).toList = lines.flatMap fun line => line.toList ++ ['\n'] := by
  induction lines with
  | nil => rfl
  | cons line rest ih => simp [toList_linesText_cons, ih]

theorem through_join (hopen : isOpen line = true) (next : String) :
    start.through (line ++ "\n" ++ next).toList = text.through next.toList := by
  rw [isOpen, decide_eq_true_eq] at hopen
  rw [String.toList_append, String.toList_append, List.append_assoc, through_append, hopen]
  rfl

theorem isWhole_join (hopen : isOpen line = true) (hnext : next.toList.head? ≠ some '#') :
    isWhole (line ++ "\n" ++ next) = isWhole next := by
  rw [isWhole, isWhole, through_join hopen, isSome_through_start hnext]

theorem linesFrom_closed (hwhole : isWhole line = true) (hopen : isOpen line = false) (rest : List Char) :
    linesFrom .start [] (line.toList ++ '\n' :: rest) = line :: linesFrom .start [] rest := by
  obtain ⟨place, hplace⟩ := Option.isSome_iff_exists.mp hwhole
  have hends : place.ends '\n' = true := by
    rw [isOpen, hplace, decide_eq_false_iff_not, Option.some.injEq] at hopen
    simp [ends, hopen]
  rw [linesFrom_through hplace, linesFrom, if_pos hends, List.append_nil, List.reverse_reverse, String.ofList_toList]

/-- Lines with an empty one below them are read as they were meant if no line ends in them. -/
theorem linesFrom_linesText (hline : isWhole line = true) (hbelow : ∀ next ∈ below, isWhole next = true)
    (hmark : ∀ next ∈ below, next.toList.head? ≠ some '#') (rest : List Char) :
    linesFrom .start [] ((linesText (line :: below ++ [""])).toList ++ rest) =
      closeLines line (below ++ [""]) ++ linesFrom .start [] rest := by
  -- a line that goes on takes in the next one, so the first line is left open in the induction
  induction below generalizing line with
  | nil =>
    have hempty : (linesText [""]).toList = ['\n'] := rfl
    rw [List.cons_append, List.nil_append, toList_linesText_cons, hempty, List.append_assoc, closeLines]
    split
    · next hopen =>
      have hjoin : isWhole (line ++ "\n" ++ "") = true := isWhole_join hopen (by decide)
      have hclosed : isOpen (line ++ "\n" ++ "") = false := by
        rw [isOpen, through_join hopen]
        rfl
      have hread := linesFrom_closed hjoin hclosed rest
      simpa [closeLines] using hread
    · next hopen =>
      rw [Bool.not_eq_true] at hopen
      have hread := linesFrom_closed hline hopen ('\n' :: rest)
      simpa [closeLines, linesFrom, ends] using hread
  | cons next others ih =>
    obtain ⟨hnext, hothers⟩ := List.forall_mem_cons.mp hbelow
    obtain ⟨hmark, hmarks⟩ := List.forall_mem_cons.mp hmark
    rw [List.cons_append, toList_linesText_cons, List.append_assoc, List.cons_append, List.cons_append, closeLines]
    split
    · next hopen =>
      rw [← ih ((isWhole_join hopen hmark).trans hnext) hothers hmarks, List.cons_append, toList_linesText_cons,
        toList_linesText_cons]
      simp
    · next hopen =>
      rw [Bool.not_eq_true] at hopen
      rw [linesFrom_closed hline hopen, List.cons_append, ← ih hnext hothers hmarks]
      rfl

theorem isWhole_of_closeLines (hmark : ∀ next ∈ below, next.toList.head? ≠ some '#')
    (h : ∀ read ∈ closeLines line below, isWhole read = true) :
    isWhole line = true ∧ ∀ next ∈ below, isWhole next = true := by
  induction below generalizing line with
  | nil => exact ⟨h line (List.mem_singleton_self _), nofun⟩
  | cons next others ih =>
    obtain ⟨hmark, hmarks⟩ := List.forall_mem_cons.mp hmark
    rw [closeLines] at h
    split at h
    · next hopen =>
      obtain ⟨hjoin, hbelow⟩ := ih hmarks h
      rw [isWhole_join hopen hmark] at hjoin
      refine ⟨?_, List.forall_mem_cons.mpr ⟨hjoin, hbelow⟩⟩
      rw [isOpen, decide_eq_true_eq] at hopen
      rw [isWhole, hopen]
      rfl
    · obtain ⟨hline, hread⟩ := List.forall_mem_cons.mp h
      obtain ⟨hnext, hbelow⟩ := ih hmarks hread
      exact ⟨hline, List.forall_mem_cons.mpr ⟨hnext, hbelow⟩⟩

/-! ### Blocks -/

/-- A comment as it is written. -/
def commentLine (comment : String) : String := "# " ++ comment

/-- A variable with its value as it is written. -/
def bindingLine (binding : String × String) : String := "  " ++ binding.1 ++ " = " ++ binding.2

namespace Block

/-- The comments above a block. -/
def comments : Block → List String
  | .rule _ _ => []
  | .build b => b.comments

/-- The line that says what a block is about. -/
def head : Block → String
  | .rule name _ => "rule " ++ name
  | .build b => b.head

/-- The variables of a block. -/
def bindings : Block → List (String × String)
  | .rule _ bindings => bindings
  | .build b => b.bindings

/-- The lines of a block as they are written, one below the other. -/
def written (b : Block) : List String :=
  b.comments.map commentLine ++ (b.head :: b.bindings.map bindingLine ++ [""])

/-- The lines that a block is meant to be. -/
def lines (b : Block) : List String :=
  b.comments.map commentLine ++ closeLines b.head (b.bindings.map bindingLine ++ [""])

/-- No line ends inside of what is to be one line. -/
structure Fits (b : Block) : Prop where
  comments : ∀ comment ∈ b.comments, '\n' ∉ comment.toList
  head : isWhole b.head = true
  bindings : ∀ binding ∈ b.bindings, isWhole (bindingLine binding) = true

theorem text_eq (b : Block) : b.text = linesText b.written := by
  cases b with
  | rule name bindings => simp [Block.text, written, comments, head, Block.bindings, linesText, bindingLines, bindingLine,
      Function.comp_def, String.append_assoc]
  | build b => simp [Block.text, written, comments, head, Block.bindings, linesText, bindingLines, bindingLine,
      commentLine, Function.comp_def, String.append_assoc]

end Block

theorem isWhole_commentLine (comment : String) : isWhole (commentLine comment) = true ↔ '\n' ∉ comment.toList := by
  have hmark : start.through (commentLine comment).toList = LinePlace.comment.through comment.toList := by
    rw [commentLine, String.toList_append, through_append]
    rfl
  rw [isWhole, hmark, through_comment]

theorem isOpen_commentLine (comment : String) : isOpen (commentLine comment) = false := by
  have hcomment : ∀ cs, LinePlace.comment.through cs ≠ some .dollar := by
    intro cs
    induction cs with
    | nil => nofun
    | cons c cs ih =>
      rw [through]
      split
      · nofun
      · exact ih
  rw [isOpen, decide_eq_false_iff_not, commentLine, String.toList_append, through_append]
  exact hcomment comment.toList

theorem head?_bindingLine (binding : String × String) : (bindingLine binding).toList.head? ≠ some '#' := by
  simp [bindingLine]

theorem head?_of_mem_bindingLines {bindings : List (String × String)} :
    ∀ next ∈ bindings.map bindingLine, next.toList.head? ≠ some '#' := by
  intro next hnext
  obtain ⟨binding, -, rfl⟩ := List.mem_map.mp hnext
  exact head?_bindingLine binding

theorem linesFrom_comments {comments : List String} (h : ∀ comment ∈ comments, '\n' ∉ comment.toList)
    (rest : List Char) :
    linesFrom .start [] ((linesText (comments.map commentLine)).toList ++ rest) =
      comments.map commentLine ++ linesFrom .start [] rest := by
  induction comments with
  | nil => rfl
  | cons comment comments ih =>
    obtain ⟨hcomment, hcomments⟩ := List.forall_mem_cons.mp h
    rw [List.map_cons, toList_linesText_cons, List.append_assoc, List.cons_append,
      linesFrom_closed ((isWhole_commentLine comment).mpr hcomment) (isOpen_commentLine comment), ih hcomments]
    rfl

namespace Block

variable {b : Block}

/-- A block without line feeds in the wrong places is read as it was meant, whatever stands below it. -/
theorem Fits.linesFrom_written (h : b.Fits) (rest : List Char) :
    linesFrom .start [] ((b.written.flatMap fun line => line.toList ++ ['\n']) ++ rest) =
      b.lines ++ linesFrom .start [] rest := by
  have hbindings : ∀ next ∈ b.bindings.map bindingLine, isWhole next = true := by
    intro next hnext
    obtain ⟨binding, hbinding, rfl⟩ := List.mem_map.mp hnext
    exact h.bindings binding hbinding
  rw [← toList_linesText, written, linesText_append, String.toList_append, List.append_assoc, linesFrom_comments h.comments,
    linesFrom_linesText h.head hbindings head?_of_mem_bindingLines, lines, List.append_assoc]

theorem fits_of_lines (h : ∀ line ∈ b.lines, isWhole line = true) : b.Fits := by
  obtain ⟨hcomments, hread⟩ := List.forall_mem_append.mp h
  have hmark : ∀ next ∈ b.bindings.map bindingLine ++ [""], next.toList.head? ≠ some '#' :=
    List.forall_mem_append.mpr ⟨head?_of_mem_bindingLines, List.forall_mem_singleton.mpr (by decide)⟩
  obtain ⟨hhead, hbelow⟩ := isWhole_of_closeLines hmark hread
  refine ⟨fun comment hcomment => ?_, hhead, fun binding hbinding => ?_⟩
  · exact (isWhole_commentLine comment).mp (hcomments _ (List.mem_map_of_mem hcomment))
  · exact hbelow _ (List.mem_append_left _ (List.mem_map_of_mem hbinding))

end Block

theorem toList_render (blocks : List Block) :
    (render blocks).toList = blocks.flatMap fun b => b.written.flatMap fun line => line.toList ++ ['\n'] := by
  induction blocks with
  | nil => rfl
  | cons b rest ih =>
    have hrender : (render (b :: rest)).toList = b.text.toList ++ (render rest).toList := by simp [render]
    rw [hrender, ih, b.text_eq, toList_linesText, List.flatMap_cons]

/-- **A file has the lines that its blocks are meant to be exactly if no line ends inside of one of these.** -/
theorem logicalLines_render_iff (blocks : List Block) :
    logicalLines (render blocks) = blocks.flatMap Block.lines ↔ ∀ b ∈ blocks, b.Fits := by
  constructor
  · intro h b hb
    have hwhole : ∀ line ∈ logicalLines (render blocks), isWhole line = true := isWhole_of_mem_linesFrom rfl
    rw [h] at hwhole
    exact Block.fits_of_lines fun line hline => hwhole line (List.mem_flatMap_of_mem hb hline)
  · intro h
    rw [logicalLines, toList_render]
    induction blocks with
    | nil => rfl
    | cons b rest ih =>
      obtain ⟨hb, hrest⟩ := List.forall_mem_cons.mp h
      rw [List.flatMap_cons, hb.linesFrom_written, ih hrest, List.flatMap_cons]

end BuildPlan.Ninja
