import BuildPlan.Proofs.Build.CompilerCommands
import BuildPlan.Proofs.Ninja.Expansion
import BuildPlan.Proofs.Ninja.PathReading

/-!
# What a target echoes

The rule of a target shows what was made by an `echo` with one word between double quotes. Ninja hands the word over as
it was escaped, but of what means something between double quotes only the quotation mark is escaped, neither the dollar
sign nor the backquote nor the backslash. So the shell reads the printed lines back exactly if they can be echoed.
-/

namespace BuildPlan

namespace Shell

open Ninja (pushRead)

variable {c : Char} {cs text rest : List Char}

/-! ### Words between double quotes -/

/-- What a shell reads behind an opening double quote, and what follows the closing one. There is no answer if there is
none, or if something is to be substituted. -/
@[simp] def readDouble : List Char → Option (List Char × List Char)
  | [] => none
  | '\\' :: c :: rest =>
    if c = '\n' then readDouble rest
    else if isProtected c then (readDouble rest).map (pushRead c)
    else ((readDouble rest).map (pushRead c)).map (pushRead '\\')
  | c :: rest =>
    if c = '"' then some ([], rest)
    else if isProtected c && c != '\n' then none
    else (readDouble rest).map (pushRead c)

theorem readDouble_cons (h : c ≠ '\\') (cs : List Char) :
    readDouble (c :: cs) =
      if c = '"' then some ([], cs)
      else if isProtected c && c != '\n' then none
      else (readDouble cs).map (pushRead c) := by
  rw [readDouble]
  intro _ _ hc
  exact absurd hc h

theorem readDouble_escape (hline : c ≠ '\n') (hc : isProtected c = true) (cs : List Char) :
    readDouble ('\\' :: c :: cs) = (readDouble cs).map (pushRead c) := by
  rw [readDouble, if_neg hline, if_pos hc]

theorem readDouble_backslash (hc : isProtected c = false) (cs : List Char) :
    readDouble ('\\' :: c :: cs) = ((readDouble cs).map (pushRead c)).map (pushRead '\\') := by
  rw [readDouble, if_neg, hc, if_neg Bool.false_ne_true]
  rintro rfl
  cases hc

theorem splitFrom_double (word cs : List Char) :
    splitFrom .double word cs = (readDouble cs).bind fun (text, rest) => splitFrom .bare (text.reverse ++ word) rest := by
  induction cs using readDouble.induct generalizing word with
  | case1 => rfl
  | case2 rest ih => simp [splitFrom, readDouble, ih]
  | case3 c rest hc hprotected ih =>
    simp [splitFrom, readDouble, hc, hprotected, ih, Option.bind_map, Function.comp_def, pushRead]
  | case4 c rest hc hprotected ih =>
    simp [splitFrom, readDouble, hc, hprotected, ih, Option.bind_map, Function.comp_def, pushRead]
  | case5 rest hne =>
    simp [splitFrom, readDouble]
  | case6 c rest hne hc hprotected =>
    rw [splitFrom, readDouble, if_neg hc, if_neg hc, if_pos hprotected, if_pos hprotected]
    · rfl
    · exact hne
    · exact hne
  | case7 c rest hne hc hprotected ih =>
    rw [splitFrom, readDouble, if_neg hc, if_neg hc, if_neg hprotected, if_neg hprotected, ih, Option.bind_map]
    · simp [Function.comp_def, pushRead]
    · exact hne
    · exact hne

theorem exists_of_map_pushRead {read : Option (List Char × List Char)} (h : read.map (pushRead c) = some (text, rest)) :
    ∃ tail, read = some (tail, rest) ∧ text = c :: tail := by
  obtain ⟨⟨tail, after⟩, hread, heq⟩ := Option.map_eq_some_iff.mp h
  cases heq
  exact ⟨tail, hread, rfl⟩

/-- The number of characters in which a text is escaped where only quotation marks are. -/
def weight (cs : List Char) : Nat := cs.length + cs.count '"'

theorem weight_cons (c : Char) (cs : List Char) : weight (c :: cs) = weight cs + if c = '"' then 2 else 1 := by
  simp only [weight, List.length_cons, List.count_cons, beq_iff_eq]
  split <;> omega

/-- No character but the quotation mark can come out of an escape that weighs as much. -/
theorem weight_le_of_readDouble (h : readDouble cs = some (text, rest)) :
    weight text + rest.length + 1 ≤ cs.length := by
  induction cs using readDouble.induct generalizing text with
  | case1 => cases h
  | case2 tail ih =>
    rw [readDouble, if_pos rfl] at h
    have hle := ih h
    simp only [List.length_cons]
    omega
  | case3 c tail hc hprotected ih =>
    rw [readDouble, if_neg hc, if_pos hprotected] at h
    obtain ⟨text, hread, rfl⟩ := exists_of_map_pushRead h
    have hle := ih hread
    rw [weight_cons]
    simp only [List.length_cons]
    split <;> omega
  | case4 c tail hc hprotected ih =>
    have hquote : c ≠ '"' := by
      rintro rfl
      exact hprotected rfl
    rw [readDouble, if_neg hc, if_neg hprotected] at h
    obtain ⟨_, hmap, rfl⟩ := exists_of_map_pushRead h
    obtain ⟨text, hread, rfl⟩ := exists_of_map_pushRead hmap
    have hle := ih hread
    rw [weight_cons, weight_cons, if_neg hquote, if_neg (by decide)]
    simp only [List.length_cons]
    omega
  | case5 tail hne =>
    rw [readDouble_cons (by decide), if_pos rfl] at h
    cases h
    simp only [List.length_cons, weight, List.length_nil, List.count_nil]
    omega
  | case6 c tail hne hc hprotected =>
    rw [readDouble, if_neg hc, if_pos hprotected] at h
    · cases h
    · exact hne
  | case7 c tail hne hc hprotected ih =>
    rw [readDouble, if_neg hc, if_neg hprotected] at h
    · obtain ⟨text, hread, rfl⟩ := exists_of_map_pushRead h
      have hle := ih hread
      rw [weight_cons, if_neg hc]
      simp only [List.length_cons]
      omega
    · exact hne

theorem weight_lt_of_escape (hc : isProtected c = true) (hquote : c ≠ '"')
    (h : readDouble ('\\' :: c :: cs) = some (text, rest)) : weight text + rest.length ≤ cs.length := by
  by_cases hline : c = '\n'
  · rw [readDouble, if_pos hline] at h
    have hle := weight_le_of_readDouble h
    omega
  · rw [readDouble_escape hline hc] at h
    obtain ⟨text, hread, rfl⟩ := exists_of_map_pushRead h
    have hle := weight_le_of_readDouble hread
    rw [weight_cons, if_neg hquote]
    omega

/-! ### Escaped quotation marks -/

/-- One character of a text in which quotation marks are escaped. -/
def escapeQuote (c : Char) : List Char := if c = '"' then ['\\', '"'] else [c]

theorem length_flatMap_escapeQuote (cs : List Char) : (cs.flatMap escapeQuote).length = weight cs := by
  induction cs with
  | nil => rfl
  | cons c cs ih =>
    rw [List.flatMap_cons, List.length_append, ih, weight_cons, escapeQuote]
    split <;> simp only [List.length_cons, List.length_nil] <;> omega

/-- A text comes out as it is of double quotes in which only quotation marks are escaped: it has no dollar signs and no
backquotes, and each of its backslashes stands before a character that it does not protect. -/
@[simp] def isEchoable : List Char → Bool
  | [] => true
  | '\\' :: c :: rest => !isProtected c && isEchoable rest
  | c :: rest => (c = '"' || c = '\n' || !isProtected c) && isEchoable rest

theorem isEchoable_cons (h : c ≠ '\\') (cs : List Char) :
    isEchoable (c :: cs) = ((c = '"' || c = '\n' || !isProtected c) && isEchoable cs) := by
  rw [isEchoable]
  intro _ _ hc
  exact absurd hc h

theorem isEchoable_append (cs rest : List Char) :
    isEchoable (cs ++ '\\' :: 'n' :: rest) = (isEchoable cs && isEchoable rest) := by
  induction cs using isEchoable.induct with
  | case1 => rfl
  | case2 c cs ih => simp [isEchoable, ih, Bool.and_assoc]
  | case3 c cs hne ih =>
    by_cases hc : c = '\\'
    · -- the last backslash would protect the one that comes after it
      cases cs with
      | nil =>
        subst hc
        rfl
      | cons d cs => exact (hne d cs hc rfl).elim
    · rw [List.cons_append, isEchoable_cons hc, isEchoable_cons hc, ih, Bool.and_assoc]

theorem escapeQuote_of_not_isProtected (h : isProtected c = false) : escapeQuote c = [c] := by
  rw [escapeQuote, if_neg]
  rintro rfl
  cases h

theorem readDouble_of_isEchoable (h : isEchoable cs = true) (rest : List Char) :
    readDouble (cs.flatMap escapeQuote ++ '"' :: rest) = some (cs, rest) := by
  induction cs using isEchoable.induct with
  | case1 => exact readDouble_cons (by decide) rest
  | case2 c cs ih =>
    rw [isEchoable, Bool.and_eq_true, Bool.not_eq_true'] at h
    obtain ⟨hprotected, hcs⟩ := h
    rw [List.flatMap_cons, List.flatMap_cons, escapeQuote_of_not_isProtected hprotected]
    change readDouble ('\\' :: c :: (cs.flatMap escapeQuote ++ '"' :: rest)) = _
    rw [readDouble_backslash hprotected, ih hcs]
    rfl
  | case3 c cs hne ih =>
    have hslash : c ≠ '\\' := by
      rintro rfl
      cases cs with
      | nil => cases h
      | cons d cs => exact hne d cs rfl rfl
    rw [isEchoable_cons hslash, Bool.and_eq_true] at h
    obtain ⟨hc, hcs⟩ := h
    rw [List.flatMap_cons, List.append_assoc, escapeQuote]
    by_cases hquote : c = '"'
    · subst hquote
      rw [if_pos rfl, List.cons_append, List.singleton_append, readDouble_escape (by decide) rfl, ih hcs]
      rfl
    · have hplain : (isProtected c && c != '\n') = false := by
        by_cases hline : c = '\n'
        · rw [hline]
          rfl
        · simpa [hquote, hline] using hc
      rw [if_neg hquote, List.singleton_append, readDouble_cons hslash, if_neg hquote, hplain, if_neg Bool.false_ne_true,
        ih hcs]
      rfl

theorem map_pushRead_eq_some_iff {read : Option (List Char × List Char)} :
    read.map (pushRead c) = some (c :: cs, rest) ↔ read = some (cs, rest) := by
  cases read with
  | none => simp
  | some p =>
    obtain ⟨text, rest'⟩ := p
    simp [pushRead]

theorem isEchoable_of_readDouble (h : readDouble (cs.flatMap escapeQuote ++ '"' :: rest) = some (cs, rest)) :
    isEchoable cs = true := by
  induction cs using isEchoable.induct with
  | case1 => rfl
  | case2 c cs ih =>
    rw [List.flatMap_cons, List.flatMap_cons, List.append_assoc, List.append_assoc] at h
    by_cases hprotected : isProtected c = true
    · exfalso
      by_cases hquote : c = '"'
      · -- the backslash protects the one that was to protect the quotation mark, which ends the word
        subst hquote
        have hword : readDouble ('\\' :: '\\' :: '"' :: (cs.flatMap escapeQuote ++ '"' :: rest)) =
            some (['\\'], cs.flatMap escapeQuote ++ '"' :: rest) := by
          rw [readDouble_escape (by decide) rfl, readDouble_cons (by decide), if_pos rfl]
          rfl
        cases hword.symm.trans h
      · rw [escapeQuote, escapeQuote, if_neg hquote, if_neg (by decide)] at h
        change readDouble ('\\' :: c :: (cs.flatMap escapeQuote ++ '"' :: rest)) = _ at h
        have hle := weight_lt_of_escape hprotected hquote h
        rw [weight_cons, weight_cons, if_neg hquote, if_neg (by decide), List.length_append, length_flatMap_escapeQuote,
          List.length_cons] at hle
        omega
    · rw [Bool.not_eq_true] at hprotected
      rw [escapeQuote_of_not_isProtected hprotected] at h
      change readDouble ('\\' :: c :: (cs.flatMap escapeQuote ++ '"' :: rest)) = _ at h
      rw [readDouble_backslash hprotected, map_pushRead_eq_some_iff, map_pushRead_eq_some_iff] at h
      rw [isEchoable, hprotected, ih h]
      rfl
  | case3 c cs hne ih =>
    rw [List.flatMap_cons, List.append_assoc, escapeQuote] at h
    by_cases hslash : c = '\\'
    · -- the last backslash protects the quotation mark that was to end the word
      exfalso
      cases cs with
      | cons d cs => exact hne d cs hslash rfl
      | nil =>
        subst hslash
        change readDouble ('\\' :: '"' :: rest) = _ at h
        rw [readDouble_escape (by decide) rfl] at h
        obtain ⟨_, -, heq⟩ := exists_of_map_pushRead h
        cases heq
    rw [isEchoable_cons hslash]
    by_cases hquote : c = '"'
    · subst hquote
      rw [if_pos rfl, List.cons_append, List.singleton_append, readDouble_escape (by decide) rfl,
        map_pushRead_eq_some_iff] at h
      rw [ih h]
      rfl
    · rw [if_neg hquote, List.singleton_append, readDouble_cons hslash, if_neg hquote] at h
      by_cases hplain : (isProtected c && c != '\n') = true
      · rw [if_pos hplain] at h
        cases h
      · rw [if_neg hplain, map_pushRead_eq_some_iff] at h
        rw [ih h, Bool.and_true]
        by_cases hline : c = '\n'
        · simp [hline]
        · simpa [hline, hquote] using hplain

/-- **A text comes out as it was exactly if it can be echoed.** -/
theorem readDouble_flatMap_escapeQuote_iff (cs rest : List Char) :
    readDouble (cs.flatMap escapeQuote ++ '"' :: rest) = some (cs, rest) ↔ isEchoable cs = true :=
  ⟨isEchoable_of_readDouble, fun h => readDouble_of_isEchoable h rest⟩

end Shell

namespace Ninja

open Shell (escapeQuote isEchoable readDouble)

variable {lines : List String}

/-- What an `echo` of some lines has between its double quotes once Ninja has handed it over. -/
def quotedLines (lines : List String) : String :=
  "\\n".intercalate (lines.map fun line => String.ofList (line.toList.flatMap escapeQuote))

theorem flatMap_intercalate (f : Char → List Char) (separator : List Char) (parts : List (List Char)) :
    (separator.intercalate parts).flatMap f = (separator.flatMap f).intercalate (parts.map (·.flatMap f)) := by
  induction parts with
  | nil => rfl
  | cons part rest ih =>
    by_cases hrest : rest = []
    · subst hrest
      simp
    · rw [List.intercalate_cons_of_ne_nil hrest, List.map_cons, List.intercalate_cons_of_ne_nil (by simpa using hrest),
        List.flatMap_append, List.flatMap_append, ih]

theorem toList_quotedLines (lines : List String) :
    (quotedLines lines).toList = ("\\n".intercalate lines).toList.flatMap escapeQuote := by
  have hseparator : "\\n".toList.flatMap escapeQuote = "\\n".toList := rfl
  rw [quotedLines, String.toList_intercalate, String.toList_intercalate, flatMap_intercalate, hseparator, List.map_map,
    List.map_map]
  refine congrArg _ (List.map_congr_left fun line _ => ?_)
  exact String.toList_ofList

theorem flatMap_escapeValueChar_escapeQuote (cs : List Char) :
    (cs.flatMap escapeValueChar).flatMap escapeQuote = (cs.flatMap escapeQuote).flatMap escapeValueChar := by
  induction cs with
  | nil => rfl
  | cons c cs ih =>
    have hc : (escapeValueChar c).flatMap escapeQuote = (escapeQuote c).flatMap escapeValueChar := by
      by_cases hdollar : c = '$'
      · subst hdollar
        rfl
      · by_cases hquote : c = '"'
        · subst hquote
          rfl
        · simp [escapeValueChar, escapeQuote, hdollar, hquote]
    rw [List.flatMap_cons, List.flatMap_append, List.flatMap_cons, List.flatMap_append, ih, hc]

theorem echoCommand_eq (lines : List String) :
    echoCommand lines = escapeValue ("echo \"" ++ quotedLines lines ++ "\"") := by
  have hline : ∀ line : String, (escapeEcho line).toList = (line.toList.flatMap escapeQuote).flatMap escapeValueChar := by
    intro line
    rw [← flatMap_escapeValueChar_escapeQuote, escapeEcho, String.toList_ofList, escapeValue, String.toList_ofList]
    rfl
  have hseparator : "\\n".toList.flatMap escapeValueChar = "\\n".toList := rfl
  have hopen : "echo \"".toList.flatMap escapeValueChar = "echo \"".toList := rfl
  have hclose : "\"".toList.flatMap escapeValueChar = "\"".toList := rfl
  apply String.toList_inj.mp
  rw [escapeValue, String.toList_ofList, String.toList_append, String.toList_append, List.flatMap_append,
    List.flatMap_append, hopen, hclose, quotedLines, String.toList_intercalate, flatMap_intercalate, hseparator,
    echoCommand, String.toList_append, String.toList_append, String.toList_intercalate, List.map_map, List.map_map,
    List.map_map]
  refine congrArg (fun parts => "echo \"".toList ++ "\\n".toList.intercalate parts ++ "\"".toList) ?_
  refine List.map_congr_left fun line _ => ?_
  rw [Function.comp_apply, Function.comp_apply, Function.comp_apply, hline, String.toList_ofList]

theorem isEchoable_intercalate (lines : List String) :
    isEchoable ("\\n".intercalate lines).toList = lines.all (isEchoable ·.toList) := by
  induction lines with
  | nil => rfl
  | cons line rest ih =>
    by_cases hrest : rest = []
    · subst hrest
      simp [String.intercalate_singleton]
    · rw [String.intercalate_cons_of_ne_nil hrest, String.toList_append, String.toList_append, List.append_assoc]
      refine (Shell.isEchoable_append line.toList ("\\n".intercalate rest).toList).trans ?_
      rw [ih, List.all_cons]

/-- What a shell reads of the word that shows some lines, where the rest of the command is nothing but the closing
quote. -/
def readEcho (lines : List String) : Option (List Char × List Char) := readDouble ((quotedLines lines).toList ++ ['"'])

theorem readEcho_eq_some_iff (lines : List String) :
    readEcho lines = some (("\\n".intercalate lines).toList, []) ↔ ∀ line ∈ lines, isEchoable line.toList = true := by
  rw [readEcho, toList_quotedLines, Shell.readDouble_flatMap_escapeQuote_iff, isEchoable_intercalate, List.all_eq_true]

theorem expandValue_echoCommand (lookup : String → String) (lines : List String) :
    expandValue lookup (echoCommand lines) = some ("echo \"" ++ quotedLines lines ++ "\"") := by
  rw [echoCommand_eq, expandValue_of_pairsDollars (pairsDollars_escapeValue _), unescapeValue_escapeValue,
    String.ofList_toList]

/-- A shell splits an `echo` of lines that can be echoed into two words. -/
theorem splitWords_echo (h : ∀ line ∈ lines, isEchoable line.toList = true) :
    Shell.splitWords ("echo \"" ++ quotedLines lines ++ "\"") = some ["echo", "\\n".intercalate lines] := by
  have hread := (readEcho_eq_some_iff lines).mpr h
  have hecho : ∀ cs, Shell.splitFrom .between [] ("echo \"".toList ++ cs) =
      (Shell.splitFrom .double [] cs).map ("echo".toList :: ·) := fun _ => rfl
  rw [readEcho] at hread
  rw [Shell.splitWords, String.toList_append, String.toList_append, List.append_assoc, hecho]
  change ((Shell.splitFrom .double [] ((quotedLines lines).toList ++ ['"'])).map _).map _ = _
  rw [Shell.splitFrom_double, hread]
  simp only [Option.bind_some, List.append_nil, Shell.splitFrom, List.reverse_reverse, Option.map_some, List.map_cons,
    List.map_nil, String.ofList_toList]

/-- **The command of a target shows the printed lines exactly if they can be echoed.** Ninja hands it over with nothing
expanded, and then the shell reads one word, which ends at its last quotation mark and gives back the lines. -/
theorem targetRule_echoes (g : Graph) (t : TargetRule) (ht : t ∈ g.targetRules) :
    (∃ name rest, Block.rule name (("command", echoCommand t.printed) :: rest) ∈ blocks g) ∧
      (∀ lookup, expandValue lookup (echoCommand t.printed) = some ("echo \"" ++ quotedLines t.printed ++ "\"")) ∧
      (readEcho t.printed = some (("\\n".intercalate t.printed).toList, []) ↔
        ∀ line ∈ t.printed, isEchoable line.toList = true) ∧
      ((∀ line ∈ t.printed, isEchoable line.toList = true) →
        commandWords (echoCommand t.printed) = some ["echo", "\\n".intercalate t.printed]) := by
  refine ⟨?_, fun lookup => expandValue_echoCommand lookup t.printed, readEcho_eq_some_iff t.printed, fun h => ?_⟩
  · obtain ⟨next, hsub⟩ := exists_targetBlocks ht
    exact ⟨_, _, hsub List.mem_cons_self⟩
  · rw [commandWords, echoCommand_eq, unescapeValue_escapeValue, String.ofList_toList]
    exact splitWords_echo h

/-- A target that has made a file. -/
def printingTarget (file : String) : TargetRule :=
  { name := "Gen", inputs := [], dependencies := [], printed := [file], description := "", run := none, test := none }

theorem targetRule_echoes_sample :
    (∀ line ∈ (printingTarget "say \"hi\"").printed, isEchoable line.toList = true) ∧
      commandWords (echoCommand (printingTarget "say \"hi\"").printed) = some ["echo", "say \"hi\""] := by
  have hlines : ∀ line ∈ (printingTarget "say \"hi\"").printed, isEchoable line.toList = true := by decide
  obtain ⟨-, -, -, hwords⟩ := targetRule_echoes
    { directory := { root := "/out", hash := "H", rel := "" }, targetRules := [printingTarget "say \"hi\""] }
    (printingTarget "say \"hi\"") (List.mem_singleton_self _)
  exact ⟨hlines, hwords hlines⟩

/-- What is printed is not always read back: a command between backquotes is to be run instead, and a backslash before a
quotation mark lets the word end early. -/
theorem printed_line_can_be_run :
    ¬ (∀ lines : List String, (∀ line ∈ lines, '\n' ∉ line.toList) →
        readEcho lines = some (("\\n".intercalate lines).toList, [])) ∧
      readEcho ["`id`"] = none ∧ readEcho ["\\\";id"] = some (['\\'], [';', 'i', 'd', '"']) := by
  refine ⟨fun h => ?_, by decide, by decide⟩
  exact absurd (h ["`id`"] (by decide)) (by decide)

end Ninja

end BuildPlan
