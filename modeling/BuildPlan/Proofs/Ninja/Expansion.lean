import BuildPlan.Proofs.Shell.RoundTrip

/-!
# Values with variables

Ninja replaces what dollar signs in a value begin, and a shell splits what comes out into words: `valueWords`. A value
in which all dollar signs are paired has no variables, and an escaped command line is one. A command line that is not
escaped has the dollar signs of its words, and each of them is used up, since two in the value leave at most one in
what comes out (`count_expandFrom_le`). So such a line comes to its words exactly if none of them has a dollar sign.
-/

namespace BuildPlan

namespace Ninja

variable {lookup : String → String} {c : Char} {cs text : List Char} {position position' : ValuePosition}

/-! ### Values without variables -/

theorem pairsDollars_cons (h : c ≠ '$') (cs : List Char) : pairsDollars (c :: cs) = pairsDollars cs := by
  rw [pairsDollars, decide_eq_true h, Bool.true_and]
  intro _ hc
  exact absurd hc h

theorem pairsDollars_escapeValue (text : String) : pairsDollars (escapeValue text).toList = true := by
  rw [escapeValue, String.toList_ofList]
  induction text.toList with
  | nil => rfl
  | cons c cs ih =>
    rw [List.flatMap_cons]
    by_cases hc : c = '$'
    · subst hc
      exact ih
    · rw [escapeValueChar, if_neg hc, List.singleton_append, pairsDollars_cons hc, ih]

theorem expandFrom_cons (h : position.step lookup c = some (text, position')) (cs : List Char) :
    expandFrom lookup position (c :: cs) = (expandFrom lookup position' cs).map (text ++ ·) := by
  rw [expandFrom, h]
  show (expandFrom lookup position' cs).bind (fun rest => some (text ++ rest)) = _
  cases expandFrom lookup position' cs <;> rfl

theorem expandFrom_cons_of_ne (h : c ≠ '$') (cs : List Char) :
    expandFrom lookup .plain (c :: cs) = (expandFrom lookup .plain cs).map (c :: ·) := by
  have hstep : ValuePosition.plain.step lookup c = some ([c], .plain) := congrArg some (if_neg h)
  exact expandFrom_cons hstep cs

theorem expandFrom_pair (cs : List Char) :
    expandFrom lookup .plain ('$' :: '$' :: cs) = (expandFrom lookup .plain cs).map ('$' :: ·) := by
  have hfirst : ValuePosition.plain.step lookup '$' = some ([], .dollar) := rfl
  have hsecond : ValuePosition.dollar.step lookup '$' = some (['$'], .plain) := rfl
  rw [expandFrom_cons hfirst, expandFrom_cons hsecond, Option.map_map]
  rfl

theorem expandFrom_of_pairsDollars (h : pairsDollars cs = true) :
    expandFrom lookup .plain cs = some (unescapeValue cs) := by
  induction cs using pairsDollars.induct with
  | case1 => rfl
  | case2 cs ih =>
    rw [expandFrom_pair, ih h]
    rfl
  | case3 c cs hpair ih =>
    rw [pairsDollars.eq_3 _ _ hpair] at h
    obtain ⟨hc, hcs⟩ := Bool.and_eq_true_iff.mp h
    have hne : c ≠ '$' := of_decide_eq_true hc
    rw [expandFrom_cons_of_ne hne, ih hcs, unescapeValue_cons hne, Option.map_some]

theorem pairsDollars_of_notMem (h : '$' ∉ cs) : pairsDollars cs = true := by
  induction cs with
  | nil => rfl
  | cons c cs ih =>
    rw [List.mem_cons, not_or] at h
    rw [pairsDollars_cons (Ne.symm h.1), ih h.2]

theorem unescapeValue_of_notMem (h : '$' ∉ cs) : unescapeValue cs = cs := by
  induction cs with
  | nil => rfl
  | cons c cs ih =>
    rw [List.mem_cons, not_or] at h
    rw [unescapeValue_cons (Ne.symm h.1), ih h.2]

theorem expandValue_of_pairsDollars {value : String} (h : pairsDollars value.toList = true) :
    expandValue lookup value = some (String.ofList (unescapeValue value.toList)) := by
  rw [expandValue, expandFrom_of_pairsDollars h, Option.map_some]

/-! ### Dollar signs are used up -/

/-- The dollar signs that a reader has taken and not used yet. -/
def ValuePosition.pending : ValuePosition → Nat
  | .plain | .indented => 0
  | .dollar | .name _ | .braces _ => 1

theorem count_readPlain_le (c : Char) :
    2 * (readPlain c).1.count '$' + (readPlain c).2.pending ≤ [c].count '$' := by
  unfold readPlain
  split
  case isTrue hc => rw [hc]; decide
  case isFalse hc => simp [hc, ValuePosition.pending]

section lookup

variable (hlookup : ∀ name, '$' ∉ (lookup name).toList)
include hlookup

theorem count_valueOf (reversed : List Char) : (valueOf lookup reversed).count '$' = 0 :=
  List.count_eq_zero.mpr (hlookup _)

theorem count_step_le (h : position.step lookup c = some (text, position')) :
    2 * text.count '$' + position'.pending ≤ position.pending + [c].count '$' := by
  have hplain : ∀ {text position'}, readPlain c = (text, position') →
      2 * text.count '$' + position'.pending ≤ [c].count '$' := fun h => by
    have hle := count_readPlain_le c
    rwa [h] at hle
  have hvalue := count_valueOf hlookup
  cases position with
  | plain => exact Nat.le_add_left_of_le (hplain (Option.some.inj h))
  | indented =>
    rw [ValuePosition.step] at h
    split at h
    · cases h
      exact Nat.zero_le _
    · exact Nat.le_add_left_of_le (hplain (Option.some.inj h))
  | dollar =>
    rw [ValuePosition.step] at h
    split at h
    · cases h
      have hsingle : [c].count '$' ≤ 1 := List.count_le_length
      simp only [ValuePosition.pending]
      omega
    · repeat' split at h
      all_goals cases h
      all_goals simp [ValuePosition.pending]
  | name reversed =>
    rw [ValuePosition.step] at h
    split at h
    · cases h
      simp [ValuePosition.pending]
    · cases h
      rw [List.count_append, hvalue, Nat.zero_add]
      exact Nat.le_add_left_of_le (hplain rfl)
  | braces reversed =>
    rw [ValuePosition.step] at h
    repeat' split at h
    all_goals cases h
    · rw [hvalue]
      simp [ValuePosition.pending]
    · simp [ValuePosition.pending]

theorem count_finish_le (h : position.finish lookup = some text) : 2 * text.count '$' ≤ position.pending := by
  cases position with
  | plain | indented =>
    cases h
    exact Nat.zero_le _
  | name reversed =>
    cases h
    rw [count_valueOf hlookup]
    exact Nat.zero_le _
  | dollar | braces _ => cases h

/-- Of the dollar signs of a value at most half come out. -/
theorem count_expandFrom_le (h : expandFrom lookup position cs = some text) :
    2 * text.count '$' ≤ position.pending + cs.count '$' := by
  induction cs generalizing position text with
  | nil => exact count_finish_le hlookup h
  | cons c cs ih =>
    obtain ⟨⟨first, next⟩, hstep, -⟩ := Option.bind_eq_some_iff.mp h
    rw [expandFrom_cons hstep] at h
    obtain ⟨rest, hrest, rfl⟩ := Option.map_eq_some_iff.mp h
    have hfirst := count_step_le hlookup hstep
    have hlater := ih hrest
    have hcons : (c :: cs).count '$' = [c].count '$' + cs.count '$' := by
      rw [← List.count_append, List.singleton_append]
    rw [List.count_append, hcons]
    omega

end lookup

end Ninja

/-! ### Words -/

namespace Shell

open Text (apostrophe)

theorem flatten_sublist_of_splitFrom {position : Position} {word line : List Char} {words : List (List Char)}
    (h : splitFrom position word line = some words) : words.flatten.Sublist (word.reverse ++ line) := by
  fun_induction splitFrom position word line generalizing words with
  | case1 =>
    cases h
    exact List.nil_sublist _
  | case2 =>
    cases h
    simp
  | case3 | case4 | case11 | case19 => cases h
  -- a space ends a word, or comes between two
  | case15 word c rest _ _ _ _ _ ih =>
    obtain ⟨later, hlater, rfl⟩ := Option.map_eq_some_iff.mp h
    exact ((ih hlater).trans (List.sublist_cons_self c rest)).append_left word.reverse
  | case16 _ word c rest _ _ _ _ _ _ ih =>
    exact (ih h).trans ((List.sublist_cons_self c rest).trans (List.sublist_append_right _ _))
  -- all others go on with the word, with or without the character
  | _ =>
    rename_i ih
    refine (ih h).trans ?_
    simp [List.append_assoc]

theorem count_flatten_le_of_splitWords {line : String} {words : List String} (h : splitWords line = some words)
    (c : Char) : (words.map String.toList).flatten.count c ≤ line.toList.count c := by
  obtain ⟨split, hsplit, rfl⟩ := Option.map_eq_some_iff.mp h
  have hback : (split.map String.ofList).map String.toList = split := by
    rw [List.map_map]
    exact List.map_id'' (fun _ => String.toList_ofList) split
  rw [hback]
  exact (flatten_sublist_of_splitFrom hsplit).count_le c

theorem count_quotedChar (c : Char) : (quotedChar c).count '$' = [c].count '$' := by
  unfold quotedChar
  split
  case isTrue hc => rw [hc]; decide
  case isFalse => rfl

theorem count_flatMap_quotedChar (cs : List Char) : (cs.flatMap quotedChar).count '$' = cs.count '$' := by
  induction cs with
  | nil => rfl
  | cons c cs ih =>
    rw [List.flatMap_cons, List.count_append, count_quotedChar, ih, ← List.count_append, List.singleton_append]

theorem count_quoteChars (word : List Char) : (quoteChars word).count '$' = word.count '$' := by
  unfold quoteChars
  split
  case isTrue => rfl
  case isFalse =>
    have hquote : [apostrophe].count '$' = 0 := by decide
    rw [← List.singleton_append, List.count_append, List.count_append, count_flatMap_quotedChar, hquote, Nat.zero_add,
      Nat.add_zero]

theorem count_intercalate (words : List (List Char)) :
    ([' '].intercalate (words.map quoteChars)).count '$' = words.flatten.count '$' := by
  have hspace : [' '].count '$' = 0 := by decide
  induction words with
  | nil => rfl
  | cons word rest ih =>
    cases rest with
    | nil =>
      rw [List.map_singleton, List.intercalate_singleton, count_quoteChars, List.flatten_singleton]
    | cons next rest =>
      rw [List.map_cons, List.map_cons, List.intercalate_cons_cons, ← List.map_cons, List.append_assoc,
        List.count_append, List.count_append, ih, count_quoteChars, hspace, Nat.zero_add, List.flatten_cons (l := word),
        List.count_append]

theorem count_joinWords (words : List String) :
    (joinWords words).toList.count '$' = (words.map String.toList).flatten.count '$' := by
  rw [joinWords, String.toList_intercalate, map_toList_map_quote]
  exact count_intercalate _

end Shell

/-- What Ninja and a shell make of a value: Ninja replaces what stands in it for something else, and the shell splits
what comes out into words. -/
def valueWords (lookup : String → String) (value : String) : Option (List String) :=
  (Ninja.expandValue lookup value).bind Shell.splitWords

/-- A value comes to certain words whatever variables there are, because it has none. -/
structure IsLiteral (value : String) (words : List String) : Prop where
  paired : Ninja.pairsDollars value.toList = true
  unescaped : commandWords value = some words
  expanded : ∀ lookup, valueWords lookup value = some words

/-- A value comes to certain words as long as none of them has a dollar sign, whatever variables there are, and to
other words or to nothing otherwise. -/
structure CarriesPlain (value : String) (words : List String) : Prop where
  reads : (∀ word ∈ words, '$' ∉ word.toList) → ∀ lookup, valueWords lookup value = some words
  only : ∀ lookup, (∀ name, '$' ∉ (lookup name).toList) → valueWords lookup value = some words →
    ∀ word ∈ words, '$' ∉ word.toList

theorem valueWords_of_pairsDollars {value : String} (h : Ninja.pairsDollars value.toList = true)
    (lookup : String → String) : valueWords lookup value = commandWords value := by
  rw [valueWords, Ninja.expandValue_of_pairsDollars h]
  rfl

theorem isLiteral_escapeValue (words : List String) :
    IsLiteral (Ninja.escapeValue (Shell.joinWords words)) words where
  paired := Ninja.pairsDollars_escapeValue _
  unescaped := commandWords_escapeValue words
  expanded lookup := by
    rw [valueWords_of_pairsDollars (Ninja.pairsDollars_escapeValue _), commandWords_escapeValue]

theorem notMem_flatten_iff {words : List String} {c : Char} :
    c ∉ (words.map String.toList).flatten ↔ ∀ word ∈ words, c ∉ word.toList := by
  simp

/-- A command line that is not escaped comes to its words exactly if none of them has a dollar sign. -/
theorem carriesPlain_joinWords (words : List String) : CarriesPlain (Shell.joinWords words) words where
  reads hplain lookup := by
    have hnone : '$' ∉ (Shell.joinWords words).toList := by
      rw [← List.count_eq_zero, Shell.count_joinWords, List.count_eq_zero]
      exact notMem_flatten_iff.mpr hplain
    rw [valueWords_of_pairsDollars (Ninja.pairsDollars_of_notMem hnone), commandWords,
      Ninja.unescapeValue_of_notMem hnone, String.ofList_toList, Shell.splitWords_joinWords]
  only lookup hlookup h := by
    obtain ⟨text, htext, hwords⟩ := Option.bind_eq_some_iff.mp h
    obtain ⟨cs, hcs, rfl⟩ := Option.map_eq_some_iff.mp htext
    -- at most half of the dollar signs come out, and the words have as many as the line
    have hhalf := Ninja.count_expandFrom_le hlookup hcs
    have hkept := Shell.count_flatten_le_of_splitWords hwords '$'
    rw [Shell.count_joinWords, Ninja.ValuePosition.pending, Nat.zero_add] at hhalf
    rw [String.toList_ofList] at hkept
    refine notMem_flatten_iff.mp (List.count_eq_zero.mp ?_)
    omega

end BuildPlan
