import BuildPlan.Ninja.Escape
import BuildPlan.Ninja.Reader

/-!
# Paths read back

Ninja's reader takes an escaped path character by character. A space, a colon and a dollar sign come back from behind
their dollar sign, but a line feed behind a dollar sign only continues the line, and a bar ends the path.
`readPath_escapePath` says what comes back of any path: the part before the first bar, without the line feeds. It is the
path itself exactly when there is neither a bar nor a line feed in it. No other escape would do better, because the
reader has no text at all for a path with one of the two.
-/

namespace BuildPlan

namespace Ninja

/-! ### Characters -/

/-- A character that can stand in a path of a build line, by itself or behind a dollar sign. -/
def isReadable (c : Char) : Bool := c ≠ '\n' && c ≠ '|'

/-- What has been read before the rest of a path. -/
def pushRead (c : Char) (read : List Char × List Char) : List Char × List Char := (c :: read.1, read.2)

theorem bind_eq_map_pushRead (c : Char) (reading : Option (List Char × List Char)) :
    (do let (path, rest) ← reading; return (c :: path, rest)) = reading.map (pushRead c) := by
  cases reading <;> rfl

theorem readPathFrom_escapePathChar {c : Char} (h : isReadable c = true) (skipping : Bool) (rest : List Char) :
    readPathFrom skipping (escapePathChar c ++ rest) = (readPathFrom false rest).map (pushRead c) := by
  simp only [isReadable, Bool.and_eq_true, decide_eq_true_eq] at h
  obtain ⟨hfeed, hbar⟩ := h
  have hpush := bind_eq_map_pushRead c (readPathFrom false rest)
  unfold escapePathChar
  split
  case isTrue hspecial =>
    have hprotected : isProtectedInPath c = true := by
      simpa [isPathSpecial, isProtectedInPath, hfeed, or_comm, or_assoc, or_left_comm] using hspecial
    cases skipping <;> simpa [readPathFrom, hfeed, hprotected] using hpush
  case isFalse hplain =>
    simp only [isPathSpecial, Bool.or_eq_true, decide_eq_true_eq, not_or] at hplain
    obtain ⟨⟨⟨hspace, -⟩, hcolon⟩, hdollar⟩ := hplain
    have hend : endsPath c = false := by simp [endsPath, hspace, hcolon, hbar, hfeed]
    cases skipping <;> simpa [readPathFrom, hend, hdollar, hspace] using hpush

theorem readPathFrom_lineFeed (skipping : Bool) (rest : List Char) :
    readPathFrom skipping (escapePathChar '\n' ++ rest) = readPathFrom true rest := by
  cases skipping <;> rfl

theorem readPathFrom_bar (skipping : Bool) (rest : List Char) :
    readPathFrom skipping (escapePathChar '|' ++ rest) = some ([], '|' :: rest) := by
  cases skipping <;> rfl

/-! ### Paths -/

/-- What comes back of a path that is escaped. -/
def readBack (path : List Char) : List Char := (path.takeWhile (· ≠ '|')).filter (· ≠ '\n')

theorem readPathFrom_flatMap_escapePathChar (path : List Char) (skipping : Bool) :
    ∃ after, readPathFrom skipping (path.flatMap escapePathChar ++ [' ']) = some (readBack path, after) := by
  induction path generalizing skipping with
  | nil => cases skipping <;> exact ⟨_, rfl⟩
  | cons c path ih =>
    rw [List.flatMap_cons, List.append_assoc]
    by_cases hbar : c = '|'
    · exact ⟨_, by rw [hbar, readPathFrom_bar]; rfl⟩
    · by_cases hfeed : c = '\n'
      · obtain ⟨after, hafter⟩ := ih true
        exact ⟨after, by rw [hfeed, readPathFrom_lineFeed, hafter]; simp [readBack]⟩
      · obtain ⟨after, hafter⟩ := ih false
        refine ⟨after, ?_⟩
        rw [readPathFrom_escapePathChar (by simp [isReadable, hfeed, hbar]), hafter]
        simp [readBack, pushRead, hfeed, hbar]

/-- A path that has neither a line feed nor a bar is read back, and the text behind it is left. -/
theorem readPathFrom_flatMap_of_readable {path : List Char} (h : ∀ c ∈ path, isReadable c = true) (rest : List Char) :
    readPathFrom false (path.flatMap escapePathChar ++ ' ' :: rest) = some (path, ' ' :: rest) := by
  induction path with
  | nil => rfl
  | cons c path ih =>
    obtain ⟨hc, hpath⟩ := List.forall_mem_cons.mp h
    rw [List.flatMap_cons, List.append_assoc, readPathFrom_escapePathChar hc, ih hpath]
    rfl

theorem isReadable_of_map_pushRead {c : Char} {reading : Option (List Char × List Char)} {value after : List Char}
    (hc : isReadable c = true)
    (ih : ∀ {rest}, reading = some (rest, after) → ∀ c ∈ rest, isReadable c = true)
    (h : reading.map (pushRead c) = some (value, after)) : ∀ c ∈ value, isReadable c = true := by
  obtain ⟨⟨rest, after'⟩, hread, hvalue⟩ := Option.map_eq_some_iff.mp h
  cases hvalue
  exact List.forall_mem_cons.mpr ⟨hc, ih hread⟩

/-- No text is read as a path with a line feed or a bar. -/
theorem isReadable_of_readPathFrom {skipping : Bool} {text value after : List Char}
    (h : readPathFrom skipping text = some (value, after)) : ∀ c ∈ value, isReadable c = true := by
  fun_induction readPathFrom skipping text generalizing value with
  | case1 => cases h; nofun
  | case2 rest ih => exact ih h
  | case3 _ rest ih => exact ih h
  | case4 _ c rest hfeed hprotected ih =>
    rw [bind_eq_map_pushRead] at h
    refine isReadable_of_map_pushRead ?_ ih h
    simp only [isProtectedInPath, Bool.or_eq_true, decide_eq_true_eq] at hprotected
    rcases hprotected with (rfl | rfl) | rfl <;> rfl
  | case5 => cases h
  | case6 => cases h; nofun
  | case7 => cases h
  | case8 _ c rest _ _ hend _ ih =>
    rw [bind_eq_map_pushRead] at h
    refine isReadable_of_map_pushRead ?_ ih h
    simp only [endsPath, Bool.or_eq_true, decide_eq_true_eq, not_or] at hend
    simp [isReadable, hend]

theorem forall_isReadable_iff {path : List Char} :
    (∀ c ∈ path, isReadable c = true) ↔ '\n' ∉ path ∧ '|' ∉ path := by
  simp only [isReadable, Bool.and_eq_true, decide_eq_true_eq]
  exact ⟨fun h => ⟨fun hfeed => (h _ hfeed).1 rfl, fun hbar => (h _ hbar).2 rfl⟩,
    fun h c hc => ⟨fun hfeed => h.1 (hfeed ▸ hc), fun hbar => h.2 (hbar ▸ hc)⟩⟩

/-- **Of an escaped path the part before the first bar comes back, without the line feeds.** So the path itself comes
back, as the one path before a space, exactly when it has neither; and a path that has one of them is not what any text
is read as. -/
theorem readPath_escapePath (path : String) :
    (∃ after, readPath ((escapePath path).toList ++ [' ']) = some (readBack path.toList, after)) ∧
      (∀ rest, readPath ((escapePath path).toList ++ ' ' :: rest) = some (path.toList, ' ' :: rest) ↔
        '\n' ∉ path.toList ∧ '|' ∉ path.toList) ∧
      ((∃ text after, readPath text = some (path.toList, after)) ↔ '\n' ∉ path.toList ∧ '|' ∉ path.toList) := by
  have hreads (rest : List Char) (h : '\n' ∉ path.toList ∧ '|' ∉ path.toList) :
      readPath ((escapePath path).toList ++ ' ' :: rest) = some (path.toList, ' ' :: rest) := by
    rw [readPath, escapePath, String.toList_ofList]
    exact readPathFrom_flatMap_of_readable (forall_isReadable_iff.mpr h) rest
  refine ⟨?_, fun rest => ⟨fun h => ?_, hreads rest⟩, ⟨?_, fun h => ⟨_, _, hreads [] h⟩⟩⟩
  · rw [readPath, escapePath, String.toList_ofList]
    exact readPathFrom_flatMap_escapePathChar path.toList false
  · exact forall_isReadable_iff.mp (isReadable_of_readPathFrom h)
  · rintro ⟨text, after, h⟩
    exact forall_isReadable_iff.mp (isReadable_of_readPathFrom h)

/-- A path with a bar is cut off there, and one with a line feed is taken for another path. -/
theorem escaped_path_can_be_misread :
    readPath ((escapePath "a|b").toList ++ [' ']) = some (['a'], ['|', 'b', ' ']) ∧
      readPath ((escapePath "a\nb").toList ++ [' ']) = readPath ((escapePath "ab").toList ++ [' ']) ∧
      ¬∀ path : String, readPath ((escapePath path).toList ++ [' ']) = some (path.toList, [' ']) := by
  refine ⟨by decide, by decide, fun h => ?_⟩
  have hbar : readPath ((escapePath "a|b").toList ++ [' ']) ≠ some ("a|b".toList, [' ']) := by decide
  exact hbar (h "a|b")

end Ninja

end BuildPlan
