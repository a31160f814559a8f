import BuildPlan.Document.Output
import BuildPlan.Proofs.Json.RoundTrip
import BuildPlan.Proofs.Numeral.Integer

/-!
# Documents read back

What `pretty` writes for a value without real numbers, `read` reads back, of two fields with one name the later. So the
document of a run gives back the text of its Ninja file.
-/

namespace BuildPlan.Json

mutual

/-- The value in which of two fields with one name only the later is left, at the place of the first. -/
def merged : Json → Json
  | .array items => .array (mergedItems items)
  | .object fields => .object (Assoc.ofList (mergedFields fields))
  | value => value

/-- The items of an array, each merged. -/
def mergedItems : List Json → List Json
  | [] => []
  | item :: rest => item.merged :: mergedItems rest

/-- The fields of an object, each with its value merged. -/
def mergedFields : List (String × Json) → List (String × Json)
  | [] => []
  | (name, value) :: rest => (name, value.merged) :: mergedFields rest

end

/-- The value holds no real numbers, and no integers that are too long to be read. -/
inductive Plain : Json → Prop
  | null : Plain .null
  | bool (b : Bool) : Plain (.bool b)
  | integer {n : Int} (h : (Nat.toDigits 10 n.natAbs).length ≤ Numeral.digitLimit) : Plain (.integer n)
  | string (s : String) : Plain (.string s)
  | array {items : List Json} (h : ∀ item ∈ items, Plain item) : Plain (.array items)
  | object {fields : List (String × Json)} (h : ∀ field ∈ fields, Plain field.2) : Plain (.object fields)

/-- What follows a value in a text of several lines. -/
def Ends (rest : List Char) : Prop := ∀ c ∈ rest.head?, c = ',' ∨ c = '\n'

/-! ### White space -/

theorem toList_newLine (level : Nat) : (newLine level).toList = '\n' :: List.replicate (2 * level) ' ' := by
  simp [newLine]

theorem skipSpace_newLine (level : Nat) {c : Char} (hc : isSpace c = false) (chars : List Char) :
    skipSpace ((newLine level).toList ++ c :: chars) = c :: chars := by
  have hblanks : ∀ n, skipSpace (List.replicate n ' ' ++ c :: chars) = c :: chars := by
    intro n
    induction n with
    | zero => rw [skipSpace, List.replicate_zero, List.nil_append, List.dropWhile_cons_of_neg (by simp [hc])]
    | succ n ih => exact ih
  rw [toList_newLine]
  exact hblanks _

theorem ends_newLine (level : Nat) (rest : List Char) : Ends ((newLine level).toList ++ rest) := by
  intro c hc
  rw [toList_newLine] at hc
  exact .inr (Option.some.inj hc).symm

theorem ends_comma (rest : List Char) : Ends (',' :: rest) := fun _ hc => .inl (Option.some.inj hc).symm

/-! ### Integers -/

theorem isDigit_digitChar {d : Nat} (h : d < 10) : (Nat.digitChar d).isDigit = true := by
  have hall : ∀ d : Fin 10, (Nat.digitChar d.val).isDigit = true := by decide
  exact hall ⟨d, h⟩

theorem isDigit_of_mem_toDigits {n : Nat} {c : Char} (hc : c ∈ Nat.toDigits 10 n) : c.isDigit = true := by
  obtain ⟨d, hd, rfl⟩ := Numeral.mem_toDigits c hc
  exact isDigit_digitChar hd

theorem toDigits_eq_cons (n : Nat) :
    ∃ c digits, Nat.toDigits 10 n = c :: digits ∧ c.isDigit = true ∧ (c = '0' → n = 0) := by
  induction n using Nat.strongRecOn with
  | _ n ih =>
    by_cases hsmall : n < 10
    · refine ⟨Nat.digitChar n, [], Nat.toDigits_of_lt_base hsmall, isDigit_digitChar hsmall, ?_⟩
      have hall : ∀ d : Fin 10, Nat.digitChar d.val = '0' → d.val = 0 := by decide
      exact hall ⟨n, hsmall⟩
    · obtain ⟨c, digits, hcons, hdigit, hzero⟩ := ih (n / 10) (by omega)
      refine ⟨c, digits ++ [Nat.digitChar (n % 10)], ?_, hdigit, fun hc => ?_⟩
      · rw [Nat.toDigits_of_base_le (by omega) (by omega), hcons, List.cons_append]
      · have := hzero hc
        omega

theorem readUnsigned_toDigits (negative : Bool) {n : Nat} (h : (Nat.toDigits 10 n).length ≤ Numeral.digitLimit)
    {rest : List Char} (hrest : Ends rest) :
    readUnsigned negative (Nat.toDigits 10 n ++ rest) = .ok (.integer (if negative then -(n : Int) else n), rest) := by
  have hstop : rest.takeWhile Char.isDigit = [] := by
    cases rest with
    | nil => rfl
    | cons c rest => rcases hrest c rfl with rfl | rfl <;> rfl
  have hrun : (if (Nat.toDigits 10 n ++ rest).head? = some '0' then ['0']
      else (Nat.toDigits 10 n ++ rest).takeWhile Char.isDigit) = Nat.toDigits 10 n := by
    by_cases hn : n = 0
    · subst hn
      rfl
    · obtain ⟨c, digits, hcons, -, hzero⟩ := toDigits_eq_cons n
      have hhead : (Nat.toDigits 10 n ++ rest).head? ≠ some '0' := by
        rw [hcons]
        exact fun hc => hn (hzero (Option.some.inj hc))
      rw [if_neg hhead, List.takeWhile_append_of_pos fun c hc => isDigit_of_mem_toDigits hc, hstop, List.append_nil]
  have hfraction : takeFraction rest = (none, rest) := by
    cases rest with
    | nil => rfl
    | cons c rest => rcases hrest c rfl with rfl | rfl <;> rfl
  have hexponent : takeExponent rest = (none, rest) := by
    cases rest with
    | nil => rfl
    | cons c rest => rcases hrest c rfl with rfl | rfl <;> rfl
  have hvalue : Numeral.valueOfDigits ((Nat.toDigits 10 n).filterMap Text.decimalValue?) = n := by
    rw [Numeral.filterMap_decimalValue? Numeral.mem_toDigits, Numeral.valueOfDigits_map, Nat.ofDigitChars_ten_toDigits]
  have hnonempty : (Nat.toDigits 10 n).isEmpty = false := List.isEmpty_eq_false_iff.mpr Nat.toDigits_ne_nil
  unfold readUnsigned
  simp only [hrun, hnonempty, List.drop_left, hfraction, hexponent, hvalue]
  rw [if_neg (by decide), if_neg (by omega)]

theorem readScalar_of_isDigit {c : Char} (hc : c.isDigit = true) (rest : List Char) :
    readScalar (c :: rest) = readUnsigned false (c :: rest) := by
  rw [readScalar.eq_def]
  split
  case h_8 => rfl
  all_goals
    rename_i heq
    rw [(List.cons.inj heq).1] at hc
    exact absurd hc (by decide)

theorem readScalar_minus {c : Char} (hc : c.isDigit = true) (rest : List Char) :
    readScalar ('-' :: c :: rest) = readUnsigned true (c :: rest) := by
  rw [readScalar.eq_def]
  split
  case h_6 heq =>
    rw [(List.cons.inj (List.cons.inj heq).2).1] at hc
    exact absurd hc (by decide)
  case h_7 heq => rw [(List.cons.inj heq).2]
  case h_8 hminus => exact absurd rfl (hminus _)
  all_goals
    rename_i heq
    exact absurd (List.cons.inj heq).1 (by decide)

theorem readScalar_integer {n : Int} (h : (Nat.toDigits 10 n.natAbs).length ≤ Numeral.digitLimit) {rest : List Char}
    (hrest : Ends rest) : readScalar ((toString n).toList ++ rest) = .ok (.integer n, rest) := by
  obtain ⟨c, digits, hcons, hdigit, -⟩ := toDigits_eq_cons n.natAbs
  have hread := fun negative => readUnsigned_toDigits negative h hrest
  rw [hcons] at hread
  rw [Numeral.toList_toString, hcons]
  by_cases hn : n < 0
  · rw [if_pos hn, List.cons_append, List.cons_append, readScalar_minus hdigit, ← List.cons_append, hread true, if_pos rfl]
    congr 3
    omega
  · rw [if_neg hn, List.cons_append, readScalar_of_isDigit hdigit, ← List.cons_append, hread false]
    congr 3
    simp only [Bool.false_eq_true, if_false]
    omega

/-! ### Arrays and objects -/

/-- The characters of parts that stand on lines of their own, with commas between them. -/
def joined (level : Nat) (parts : List String) : List Char := (("," ++ newLine level).intercalate parts).toList

theorem joined_singleton (level : Nat) (part : String) : joined level [part] = part.toList := by
  rw [joined, String.intercalate_singleton]

theorem joined_cons (level : Nat) (part : String) {rest : List String} (h : rest ≠ []) :
    joined level (part :: rest) = part.toList ++ ',' :: ((newLine level).toList ++ joined level rest) := by
  rw [joined, String.intercalate_cons_of_ne_nil h, String.toList_append, String.toList_append, String.toList_append,
    joined, List.append_assoc, List.append_assoc]
  rfl

theorem toList_onLines (opening closing : String) (level : Nat) {parts : List String} (h : parts ≠ []) :
    (onLines opening closing level parts).toList = opening.toList ++ ((newLine (level + 1)).toList ++
      (joined (level + 1) parts ++ ((newLine level).toList ++ closing.toList))) := by
  cases parts with
  | nil => exact absurd rfl h
  | cons part rest => simp only [onLines, String.toList_append, List.append_assoc, joined]

/-- What is written for the value is read back, at whatever level and whatever follows. -/
structure ReadsBack (value : Json) : Prop where
  starts : ∀ level, ∃ c chars, (value.prettyAt level).toList = c :: chars ∧ isSpace c = false ∧ c ≠ ']'
  reads : ∀ (level fuel : Nat) {rest : List Char}, Ends rest → (value.prettyAt level).toList.length ≤ fuel →
    readValue fuel ((value.prettyAt level).toList ++ rest) = .ok (value.merged, rest)

theorem prettyItems_ne_nil (level : Nat) {items : List Json} (h : items ≠ []) : prettyItems level items ≠ [] := by
  cases items with
  | nil => exact absurd rfl h
  | cons item rest => exact List.cons_ne_nil _ _

theorem prettyFields_ne_nil (level : Nat) {fields : List (String × Json)} (h : fields ≠ []) :
    prettyFields level fields ≠ [] := by
  cases fields with
  | nil => exact absurd rfl h
  | cons field rest => exact List.cons_ne_nil _ _

theorem joined_prettyItems {items : List Json} (hne : items ≠ []) (h : ∀ item ∈ items, item.ReadsBack) (level : Nat) :
    ∃ c chars, joined level (prettyItems level items) = c :: chars ∧ isSpace c = false ∧ c ≠ ']' := by
  obtain ⟨item, rest, rfl⟩ := List.exists_cons_of_ne_nil hne
  obtain ⟨c, chars, hcons, hc⟩ := (h item List.mem_cons_self).starts level
  rw [prettyItems]
  by_cases hlast : rest = []
  · subst hlast
    exact ⟨c, chars, by rw [prettyItems, joined_singleton, hcons], hc⟩
  · exact ⟨c, _, by rw [joined_cons _ _ (prettyItems_ne_nil level hlast), hcons, List.cons_append], hc⟩

theorem joined_prettyFields (level : Nat) {fields : List (String × Json)} (hne : fields ≠ []) :
    ∃ chars, joined level (prettyFields level fields) = '"' :: chars := by
  obtain ⟨⟨name, value⟩, rest, rfl⟩ := List.exists_cons_of_ne_nil hne
  rw [prettyFields]
  by_cases hlast : rest = []
  · subst hlast
    exact ⟨_, by rw [prettyFields, joined_singleton, writeString, String.toList_append, String.toList_append,
      String.toList_ofList]; rfl⟩
  · exact ⟨_, by rw [joined_cons _ _ (prettyFields_ne_nil level hlast), writeString, String.toList_append,
      String.toList_append, String.toList_ofList]; rfl⟩

theorem readItems_joined {items : List Json} (hne : items ≠ []) (h : ∀ item ∈ items, item.ReadsBack)
    (level below : Nat) (rest : List Char) (fuel : Nat) (hfuel : (joined level (prettyItems level items)).length < fuel) :
    readItems fuel (joined level (prettyItems level items) ++ ((newLine below).toList ++ ']' :: rest)) =
      .ok (mergedItems items, rest) := by
  induction items generalizing fuel with
  | nil => exact absurd rfl hne
  | cons item items ih =>
    obtain ⟨hitem, hitems⟩ := List.forall_mem_cons.mp h
    obtain ⟨fuel, rfl⟩ : ∃ n, fuel = n + 1 := ⟨fuel - 1, by omega⟩
    rw [prettyItems] at hfuel ⊢
    by_cases hlast : items = []
    · subst hlast
      rw [prettyItems, joined_singleton] at hfuel ⊢
      have hread := hitem.reads level fuel (ends_newLine below (']' :: rest)) (Nat.le_of_lt_succ hfuel)
      simp only [readItems, hread, bind, Except.bind, skipSpace_newLine below (c := ']') rfl]
      rfl
    · have hnext := ih hlast hitems fuel
      obtain ⟨c, chars, hcons, hspace, -⟩ := joined_prettyItems hlast hitems level
      rw [joined_cons _ _ (prettyItems_ne_nil level hlast)] at hfuel ⊢
      rw [hcons] at hfuel hnext ⊢
      simp only [List.length_append, List.length_cons, List.append_assoc, List.cons_append] at hfuel hnext ⊢
      have hread := hitem.reads level fuel (ends_comma ((newLine level).toList ++ c ::
        (chars ++ ((newLine below).toList ++ ']' :: rest)))) (by omega)
      have hcomma : ∀ chars, skipSpace (',' :: chars) = ',' :: chars := fun _ => rfl
      simp only [readItems, hread, bind, Except.bind, hcomma, skipSpace_newLine level hspace, hnext (by omega)]
      rfl

theorem readFields_field {name : String} {value : Json} (hvalue : value.ReadsBack) {level fuel : Nat}
    {rest : List Char} (hrest : Ends rest) (hfuel : (value.prettyAt level).toList.length ≤ fuel) :
    readFields (fuel + 1) ((writeString name ++ ": " ++ value.prettyAt level).toList ++ rest) =
      (match skipSpace rest with
      | '\x7d' :: rest => .ok ([(name, value.merged)], rest)
      | ',' :: rest =>
        (readFields fuel (skipSpace rest)).map fun (fields, rest) => ((name, value.merged) :: fields, rest)
      | _ => .error .malformed) := by
  obtain ⟨c, chars, hcons, hspace, -⟩ := hvalue.starts level
  have hread := hvalue.reads level fuel hrest hfuel
  have hcolon : ∀ chars, skipSpace (':' :: chars) = ':' :: chars := fun _ => rfl
  have hblank : skipSpace (' ' :: c :: (chars ++ rest)) = c :: (chars ++ rest) := by
    change skipSpace (c :: (chars ++ rest)) = _
    rw [skipSpace, List.dropWhile_cons_of_neg (by simp [hspace])]
  have hsign : ": ".toList = [':', ' '] := rfl
  simp only [writeString, String.toList_append, String.toList_ofList, hsign, hcons, List.cons_append, List.append_assoc,
    List.nil_append] at hread ⊢
  rw [readFields]
  simp only [readString_flatMap_escapeChar, hcolon, hblank, hread, String.ofList_toList, bind, Except.bind, pure,
    Except.pure]
  split <;> simp_all [Except.map, throw, throwThe, MonadExceptOf.throw]

theorem readFields_joined {fields : List (String × Json)} (hne : fields ≠ [])
    (h : ∀ field ∈ fields, field.2.ReadsBack) (level below : Nat) (rest : List Char) (fuel : Nat)
    (hfuel : (joined level (prettyFields level fields)).length < fuel) :
    readFields fuel (joined level (prettyFields level fields) ++ ((newLine below).toList ++ '\x7d' :: rest)) =
      .ok (mergedFields fields, rest) := by
  induction fields generalizing fuel with
  | nil => exact absurd rfl hne
  | cons field fields ih =>
    obtain ⟨name, value⟩ := field
    obtain ⟨hvalue, hfields⟩ := List.forall_mem_cons.mp h
    change value.ReadsBack at hvalue
    obtain ⟨fuel, rfl⟩ : ∃ n, fuel = n + 1 := ⟨fuel - 1, by omega⟩
    rw [prettyFields] at hfuel ⊢
    by_cases hlast : fields = []
    · subst hlast
      rw [prettyFields, joined_singleton] at hfuel ⊢
      simp only [String.toList_append, List.length_append] at hfuel
      rw [readFields_field hvalue (ends_newLine below _) (by omega), skipSpace_newLine below (c := '\x7d') rfl]
      rfl
    · have hnext := ih hlast hfields fuel
      obtain ⟨chars, hcons⟩ := joined_prettyFields level hlast
      rw [joined_cons _ _ (prettyFields_ne_nil level hlast)] at hfuel ⊢
      rw [hcons] at hfuel hnext ⊢
      simp only [String.toList_append, List.length_append, List.length_cons] at hfuel hnext
      have hcomma : ∀ chars, skipSpace (',' :: chars) = ',' :: chars := fun _ => rfl
      rw [List.append_assoc, List.cons_append, readFields_field hvalue (ends_comma _) (by omega)]
      simp only [hcomma, List.append_assoc, List.cons_append] at hnext ⊢
      rw [skipSpace_newLine level (c := '"') rfl, hnext (by omega)]
      rfl

/-- A value that is written on one line is read back if its characters are. -/
theorem readsBack_of_chars {value : Json} (c : Char) (chars : List Char)
    (hpretty : ∀ level, (value.prettyAt level).toList = c :: chars) (hspace : isSpace c = false) (hc : c ≠ ']')
    (hread : ∀ fuel rest, Ends rest → readValue (fuel + 1) (c :: (chars ++ rest)) = .ok (value.merged, rest)) :
    value.ReadsBack := by
  refine ⟨fun level => ⟨c, chars, hpretty level, hspace, hc⟩, fun level fuel rest hrest hfuel => ?_⟩
  rw [hpretty, List.length_cons] at hfuel
  obtain ⟨fuel, rfl⟩ : ∃ n, fuel = n + 1 := ⟨fuel - 1, by omega⟩
  rw [hpretty]
  exact hread fuel rest hrest

theorem readsBack_integer {n : Int} (h : (Nat.toDigits 10 n.natAbs).length ≤ Numeral.digitLimit) :
    ReadsBack (.integer n) := by
  obtain ⟨c, digits, hcons, hdigit, -⟩ := toDigits_eq_cons n.natAbs
  have hne : ∀ d : Char, d.isDigit = false → c ≠ d := by
    rintro d hd rfl
    rw [hdigit] at hd
    cases hd
  obtain ⟨first, more, htext, hspace, hbracket, hplain⟩ : ∃ first more, (toString n).toList = first :: more ∧
      isSpace first = false ∧ first ≠ ']' ∧ first ≠ '"' ∧ first ≠ '[' ∧ first ≠ '\x7b' := by
    rw [Numeral.toList_toString, hcons]
    by_cases hn : n < 0
    · exact ⟨'-', c :: digits, if_pos hn, by decide⟩
    · refine ⟨c, digits, if_neg hn, ?_, hne _ rfl, hne _ rfl, hne _ rfl, hne _ rfl⟩
      simp [isSpace, hne ' ' rfl, hne '\t' rfl, hne '\n' rfl, hne '\r' rfl]
  refine readsBack_of_chars first more (fun _ => htext) hspace hbracket fun fuel rest hrest => ?_
  have hread := readScalar_integer h hrest
  rw [htext, List.cons_append] at hread
  obtain ⟨hquote, hopen, hbrace⟩ := hplain
  rw [readValue.eq_def]
  simp only
  split
  case h_1 heq => exact absurd (List.cons.inj heq).1 hquote
  case h_2 heq => exact absurd (List.cons.inj heq).1 hopen
  case h_3 heq => exact absurd (List.cons.inj heq).1 hbrace
  case h_4 => exact hread

theorem readsBack_array {items : List Json} (h : ∀ item ∈ items, item.ReadsBack) : ReadsBack (.array items) := by
  by_cases hne : items = []
  · subst hne
    have hpretty : ∀ level, prettyAt level (.array []) = "[" ++ "]" := fun _ => rfl
    refine readsBack_of_chars '[' [']'] (fun level => ?_) rfl (by decide) fun _ _ _ => rfl
    rw [hpretty]
    rfl
  have htext : ∀ level, (prettyAt level (.array items)).toList = '[' :: ((newLine (level + 1)).toList ++
      (joined (level + 1) (prettyItems (level + 1) items) ++ ((newLine level).toList ++ [']']))) := fun level =>
    toList_onLines "[" "]" level (prettyItems_ne_nil _ hne)
  refine ⟨fun level => ⟨'[', _, htext level, rfl, by decide⟩, fun level fuel rest _ hfuel => ?_⟩
  rw [htext] at hfuel ⊢
  simp only [List.length_cons, List.length_append] at hfuel
  obtain ⟨fuel, rfl⟩ : ∃ n, fuel = n + 1 := ⟨fuel - 1, by omega⟩
  have hread := readItems_joined hne h (level + 1) level rest fuel (by omega)
  obtain ⟨c, chars, hcons, hspace, hbracket⟩ := joined_prettyItems hne h (level + 1)
  simp only [hcons, List.cons_append, List.append_assoc, List.nil_append] at hread ⊢
  rw [readValue, skipSpace_newLine _ hspace]
  split
  case h_1 heq => exact absurd (List.cons.inj heq).1 hbracket
  case h_2 =>
    rw [hread]
    rfl

theorem readsBack_object {fields : List (String × Json)} (h : ∀ field ∈ fields, field.2.ReadsBack) :
    ReadsBack (.object fields) := by
  by_cases hne : fields = []
  · subst hne
    have hpretty : ∀ level, prettyAt level (.object []) = "\x7b" ++ "\x7d" := fun _ => rfl
    refine readsBack_of_chars '\x7b' ['\x7d'] (fun level => ?_) rfl (by decide) fun _ _ _ => rfl
    rw [hpretty]
    rfl
  have htext : ∀ level, (prettyAt level (.object fields)).toList = '\x7b' :: ((newLine (level + 1)).toList ++
      (joined (level + 1) (prettyFields (level + 1) fields) ++ ((newLine level).toList ++ ['\x7d']))) := fun level =>
    toList_onLines "\x7b" "\x7d" level (prettyFields_ne_nil _ hne)
  refine ⟨fun level => ⟨'\x7b', _, htext level, rfl, by decide⟩, fun level fuel rest _ hfuel => ?_⟩
  rw [htext] at hfuel ⊢
  simp only [List.length_cons, List.length_append] at hfuel
  obtain ⟨fuel, rfl⟩ : ∃ n, fuel = n + 1 := ⟨fuel - 1, by omega⟩
  have hread := readFields_joined hne h (level + 1) level rest fuel (by omega)
  obtain ⟨chars, hcons⟩ := joined_prettyFields (level + 1) hne
  simp only [hcons, List.cons_append, List.append_assoc, List.nil_append] at hread ⊢
  rw [readValue, skipSpace_newLine _ (c := '"') rfl]
  split
  case h_1 heq => exact absurd (List.cons.inj heq).1 (by decide)
  case h_2 =>
    rw [hread]
    rfl

theorem Plain.readsBack {value : Json} (h : value.Plain) : value.ReadsBack := by
  induction h with
  | null =>
    have hpretty : ∀ level, prettyAt level .null = "null" := fun _ => rfl
    refine readsBack_of_chars 'n' ['u', 'l', 'l'] (fun level => ?_) rfl (by decide) fun _ _ _ => rfl
    rw [hpretty]
    rfl
  | bool b =>
    have hpretty : ∀ level, prettyAt level (.bool b) = if b then "true" else "false" := fun _ => rfl
    cases b with
    | false =>
      refine readsBack_of_chars 'f' ['a', 'l', 's', 'e'] (fun level => ?_) rfl (by decide) fun _ _ _ => rfl
      rw [hpretty]
      rfl
    | true =>
      refine readsBack_of_chars 't' ['r', 'u', 'e'] (fun level => ?_) rfl (by decide) fun _ _ _ => rfl
      rw [hpretty]
      rfl
  | integer h => exact readsBack_integer h
  | string s =>
    refine readsBack_of_chars '"' (s.toList.flatMap escapeChar ++ ['"']) (fun _ => ?_) rfl
      (by decide) fun fuel rest _ => ?_
    · exact String.toList_ofList
    · rw [readValue, List.append_assoc, List.singleton_append, readString_flatMap_escapeChar]
      simp [Except.map, merged]
  | array _ ih => exact readsBack_array ih
  | object _ ih => exact readsBack_object ih

/-- **What is written for a plain value is read back**, of two fields with one name the later. -/
theorem Plain.read_pretty {value : Json} (h : value.Plain) : read (value.pretty ++ "\n") = .ok value.merged := by
  have hback := h.readsBack
  obtain ⟨c, chars, hcons, hspace, -⟩ := hback.starts 0
  have hend : Ends ['\n'] := fun _ hc => .inr (Option.some.inj hc).symm
  have hread := hback.reads 0 (((value.prettyAt 0).toList ++ ['\n']).length + 1) hend
    (by rw [List.length_append]; omega)
  have htext : (value.pretty ++ "\n").toList = (value.prettyAt 0).toList ++ ['\n'] := String.toList_append
  have hskip : skipSpace ((value.prettyAt 0).toList ++ ['\n']) = (value.prettyAt 0).toList ++ ['\n'] := by
    rw [hcons, List.cons_append, skipSpace, List.dropWhile_cons_of_neg (by simp [hspace])]
  unfold read
  rw [htext]
  change Except.bind (readValue (((value.prettyAt 0).toList ++ ['\n']).length + 1)
    (skipSpace ((value.prettyAt 0).toList ++ ['\n']))) _ = _
  rw [hskip, hread]
  rfl

end BuildPlan.Json

namespace BuildPlan

open Json (Plain)

theorem Json.plain_ofTexts (texts : List String) : Plain (.ofTexts texts) := by
  refine .array fun item hitem => ?_
  obtain ⟨text, -, rfl⟩ := List.mem_map.mp hitem
  exact .string text

theorem Output.plain_sortedObject {α : Type} (table : Assoc String α) {toJson : α → Json} (h : ∀ a, Plain (toJson a)) :
    Plain (sortedObject table toJson) := by
  refine .object fun field hfield => ?_
  obtain ⟨entry, -, rfl⟩ := List.mem_map.mp hfield
  exact h entry.2

theorem TargetInfo.plain_toJson (i : TargetInfo) : Plain i.toJson := by
  refine .object ?_
  simp [Plain.string, Plain.bool]

theorem FlagInfo.plain_toJson (i : FlagInfo) : Plain i.toJson := by
  refine .object ?_
  simp [Plain.string, Json.plain_ofTexts]

theorem Output.plain_toJson (o : Output) : Plain o.toJson := by
  have hversion : Plain (.integer documentVersion) := .integer (by decide)
  refine .object ?_
  simp [hversion, Plain.string, Json.plain_ofTexts, plain_sortedObject, TargetInfo.plain_toJson, FlagInfo.plain_toJson]

/-- The document of a run gives back the text of its Ninja file. -/
theorem Output.ninjaFile_of_read (o : Output) :
    ∃ fields, Json.read o.text = .ok (.object fields) ∧ Json.field? fields "ninja_file" = some (.string o.ninjaFile) := by
  refine ⟨_, o.plain_toJson.read_pretty, ?_⟩
  rfl

end BuildPlan
