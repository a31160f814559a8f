import BuildPlan.Ninja.Reader
import BuildPlan.Shell.Split
import BuildPlan.Shell.Word

/-!
# Words read back

A command is written in two layers: its words are quoted for a shell, and the dollar signs of the line are doubled for
Ninja. Ninja and the shell take off a layer each (`unescapeValue_escapeValue`, `splitWords_joinWords`), so that the
words of a command are those that it was made of.
-/

namespace BuildPlan

namespace Ninja

theorem unescapeValue_cons {c : Char} (h : c ≠ '$') (rest : List Char) :
    unescapeValue (c :: rest) = c :: unescapeValue rest := by
  rw [unescapeValue]
  intro _ hc
  exact absurd hc h

theorem unescapeValue_escapeValue (text : String) : unescapeValue (escapeValue text).toList = text.toList := by
  rw [escapeValue, String.toList_ofList]
  induction text.toList with
  | nil => rfl
  | cons c rest ih =>
    rw [List.flatMap_cons]
    by_cases hc : c = '$'
    · subst hc
      exact congrArg ('$' :: ·) ih
    · rw [escapeValueChar, if_neg hc, List.singleton_append, unescapeValue_cons hc, ih]

end Ninja

namespace Shell

open Text (apostrophe)

variable {c : Char}

/-! ### Characters -/

theorem notMem_of_isSafe (hc : isSafe c = true) {special : List Char} (h : special.all (!isSafe ·) = true) :
    c ∉ special := by
  intro hmem
  have hunsafe := List.all_eq_true.mp h c hmem
  rw [hc] at hunsafe
  cases hunsafe

theorem splitFrom_cons_of_isSafe {position : Position} (hposition : position = .between ∨ position = .bare)
    (hc : isSafe c = true) (word rest : List Char) :
    splitFrom position word (c :: rest) = splitFrom .bare (c :: word) rest := by
  have hquotes : c ∉ [apostrophe, '"', '\\'] := notMem_of_isSafe hc (by decide)
  have hseparators : c ∉ [' ', '\t', '\n'] := notMem_of_isSafe hc (by decide)
  have hspecial : isSpecial c = false :=
    Bool.eq_false_iff.mpr fun h => notMem_of_isSafe hc (by decide) (List.contains_iff_mem.mp h)
  simp only [List.mem_cons, List.not_mem_nil, or_false, not_or] at hquotes hseparators
  rcases hposition with rfl | rfl
  · simp [splitFrom, isSeparator, hquotes, hseparators, hspecial]
  · simp [splitFrom, isSeparator, hquotes, hseparators, hspecial]

theorem splitFrom_quotedChar (c : Char) (word rest : List Char) :
    splitFrom .single word (quotedChar c ++ rest) = splitFrom .single (c :: word) rest := by
  unfold quotedChar
  split
  case isTrue hc =>
    subst hc
    simp [quotedApostrophe, splitFrom, apostrophe, isSeparator, isProtected]
  case isFalse hc => simp [splitFrom, hc]

/-! ### Words and lines -/

theorem splitFrom_append_of_isSafe {cs : List Char} (hcs : cs.all isSafe = true) (word rest : List Char) :
    splitFrom .bare word (cs ++ rest) = splitFrom .bare (cs.reverse ++ word) rest := by
  induction cs generalizing word with
  | nil => rfl
  | cons c cs ih =>
    obtain ⟨hc, hcs⟩ := Bool.and_eq_true_iff.mp hcs
    rw [List.cons_append, splitFrom_cons_of_isSafe (.inr rfl) hc, ih hcs, List.reverse_cons, List.append_assoc,
      List.singleton_append]

theorem splitFrom_flatMap_quotedChar (cs word rest : List Char) :
    splitFrom .single word (cs.flatMap quotedChar ++ rest) = splitFrom .single (cs.reverse ++ word) rest := by
  induction cs generalizing word with
  | nil => rfl
  | cons c cs ih =>
    rw [List.flatMap_cons, List.append_assoc, splitFrom_quotedChar, ih, List.reverse_cons, List.append_assoc,
      List.singleton_append]

theorem splitFrom_quoteChars (cs rest : List Char) :
    splitFrom .between [] (quoteChars cs ++ rest) = splitFrom .bare cs.reverse rest := by
  unfold quoteChars
  split
  case isTrue h =>
    obtain ⟨hne, hsafe⟩ := h
    obtain ⟨c, cs, rfl⟩ := List.exists_cons_of_ne_nil hne
    obtain ⟨hc, hcs⟩ := Bool.and_eq_true_iff.mp hsafe
    rw [List.cons_append, splitFrom_cons_of_isSafe (.inl rfl) hc, splitFrom_append_of_isSafe hcs, List.reverse_cons]
  case isFalse =>
    have hopen : ∀ cs, splitFrom .between [] (apostrophe :: cs) = splitFrom .single [] cs := by
      intro cs
      simp [splitFrom, apostrophe, isSeparator]
    rw [List.append_assoc, List.cons_append, hopen, splitFrom_flatMap_quotedChar, List.append_nil]
    simp [splitFrom]

theorem splitFrom_intercalate (words : List (List Char)) :
    splitFrom .between [] ([' '].intercalate (words.map quoteChars)) = some words := by
  induction words with
  | nil => rfl
  | cons word rest ih =>
    cases rest with
    | nil =>
      have hlast := splitFrom_quoteChars word []
      rw [List.append_nil] at hlast
      rw [List.map_singleton, List.intercalate_singleton, hlast, splitFrom, List.reverse_reverse]
    | cons next rest =>
      have hspace : ∀ cs, splitFrom .bare word.reverse (' ' :: cs) =
          (splitFrom .between [] cs).map (word.reverse.reverse :: ·) := by
        intro cs
        simp [splitFrom, isSeparator]
      rw [List.map_cons, List.map_cons, List.intercalate_cons_cons, List.append_assoc, splitFrom_quoteChars,
        List.singleton_append, hspace, ← List.map_cons, ih, List.reverse_reverse, Option.map_some]

theorem map_toList_map_quote (words : List String) :
    (words.map quote).map String.toList = (words.map String.toList).map quoteChars := by
  rw [List.map_map, List.map_map]
  refine List.map_congr_left fun word _ => ?_
  exact String.toList_ofList

/-- **A shell reads a command line as the words that it was made of.** -/
theorem splitWords_joinWords (words : List String) : splitWords (joinWords words) = some words := by
  have hback : (words.map String.toList).map String.ofList = words := by
    rw [List.map_map]
    exact List.map_id'' (fun word => String.ofList_toList) words
  rw [splitWords, joinWords, String.toList_intercalate, map_toList_map_quote]
  exact (congrArg _ (splitFrom_intercalate _)).trans (congrArg some hback)

end Shell

/-- The words of a command as Ninja hands it to a shell. -/
def commandWords (command : String) : Option (List String) :=
  Shell.splitWords (String.ofList (Ninja.unescapeValue command.toList))

/-- An escaped command line comes to the words that it was made of. -/
theorem commandWords_escapeValue (words : List String) :
    commandWords (Ninja.escapeValue (Shell.joinWords words)) = some words := by
  rw [commandWords, Ninja.unescapeValue_escapeValue, String.ofList_toList, Shell.splitWords_joinWords]

end BuildPlan
