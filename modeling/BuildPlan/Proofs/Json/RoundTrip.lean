import BuildPlan.Json.Reader
import BuildPlan.Json.Writer
import BuildPlan.Proofs.Text.Hex

/-!
# Tables of texts as JSON

What `writeString` writes, `readString` reads back, whatever follows it, and what `pretty` writes for an object of
strings, `read` reads back as the table of its fields.
-/

namespace BuildPlan.Json

/-- A character is put in front of what is read. -/
def Reading.push (c : Char) (r : Reading (List Char)) : Reading (List Char) := r.map fun (s, rest) => (c :: s, rest)

theorem readUnit_digits {n : Nat} (h : n < 65536) :
    readUnit (Nat.digitChar (n / 4096)) (Nat.digitChar (n / 256 % 16)) (Nat.digitChar (n / 16 % 16))
      (Nat.digitChar (n % 16)) = some n := by
  unfold readUnit
  rw [Text.hexValue?_digitChar (by omega), Text.hexValue?_digitChar (by omega), Text.hexValue?_digitChar (by omega),
    Text.hexValue?_digitChar (by omega)]
  simp only [Option.bind_eq_bind, Option.bind_some, Option.pure_def, Option.some.injEq]
  omega

theorem readString_escapeUnit {n : Nat} (h : n < 65536) (hhigh : isHighSurrogate n = false)
    (hlow : isLowSurrogate n = false) (rest : List Char) :
    readString (escapeUnit n ++ rest) = Reading.push (Char.ofNat n) (readString rest) := by
  rw [escapeUnit, Text.hexPadded_four h]
  simp only [List.cons_append, List.nil_append]
  rw [readString, readUnit_digits h]
  simp only [hhigh, hlow, Bool.false_eq_true, if_false]
  rfl

/-- A pair of escapes stands for the character whose code units they are. -/
theorem readString_surrogates {n : Nat} (hlow : 0x10000 ≤ n) (hhigh : n < 0x110000) (rest : List Char) :
    readString (escapeUnit (0xD800 + (n - 0x10000) / 0x400) ++
        (escapeUnit (0xDC00 + (n - 0x10000) % 0x400) ++ rest)) =
      Reading.push (Char.ofNat n) (readString rest) := by
  have hfirst : 0xD800 + (n - 0x10000) / 0x400 < 0xDC00 := by omega
  have hsecond : 0xDC00 + (n - 0x10000) % 0x400 < 0xE000 := by omega
  have hsum : 0x10000 + (0xD800 + (n - 0x10000) / 0x400 - 0xD800) * 0x400 +
      (0xDC00 + (n - 0x10000) % 0x400 - 0xDC00) = n := by omega
  have hvalue : ofSurrogates (0xD800 + (n - 0x10000) / 0x400) (0xDC00 + (n - 0x10000) % 0x400) = Char.ofNat n := by
    rw [ofSurrogates, hsum]
  rw [escapeUnit, escapeUnit, Text.hexPadded_four (by omega), Text.hexPadded_four (by omega)]
  simp only [List.cons_append, List.nil_append]
  rw [readString, readUnit_digits (by omega)]
  have hisHigh : isHighSurrogate (0xD800 + (n - 0x10000) / 0x400) = true := by
    simp only [isHighSurrogate, Bool.and_eq_true, decide_eq_true_eq]
    omega
  have hisLow : isLowSurrogate (0xDC00 + (n - 0x10000) % 0x400) = true := by
    simp only [isLowSurrogate, Bool.and_eq_true, decide_eq_true_eq]
    omega
  simp only [hisHigh, if_true]
  rw [readUnit_digits (by omega)]
  simp only [hisLow, if_true, hvalue]
  rfl

theorem readString_plain {c : Char} (hquote : c ≠ '"') (hslash : c ≠ '\\') (hspace : 0x20 ≤ c.toNat)
    (rest : List Char) : readString (c :: rest) = Reading.push c (readString rest) := by
  rw [readString.eq_def]
  split
  case h_1 h => cases h
  case h_2 h => exact absurd (List.cons.inj h).1 hquote
  case h_3 h => exact absurd (List.cons.inj h).1 hslash
  case h_4 h => exact absurd (List.cons.inj h).1 hslash
  case h_5 h =>
    obtain ⟨rfl, rfl⟩ := List.cons.inj h
    rw [if_neg]
    · rfl
    · simp only [Bool.or_eq_true, decide_eq_true_eq, not_or]
      exact ⟨by omega, hslash⟩

theorem isSurrogate_toNat (c : Char) : isHighSurrogate c.toNat = false ∧ isLowSurrogate c.toNat = false := by
  have hvalid := c.valid
  unfold UInt32.isValidChar Nat.isValidChar at hvalid
  change c.toNat < 0xd800 ∨ 0xdfff < c.toNat ∧ c.toNat < 0x110000 at hvalid
  simp only [isHighSurrogate, isLowSurrogate, Bool.and_eq_false_iff, decide_eq_false_iff_not]
  omega

theorem readString_escapeChar (c : Char) (rest : List Char) :
    readString (escapeChar c ++ rest) = Reading.push c (readString rest) := by
  have hbound : c.toNat < 0x110000 := by
    have hvalid := c.valid
    unfold UInt32.isValidChar Nat.isValidChar at hvalid
    change c.toNat < 0xd800 ∨ 0xdfff < c.toNat ∧ c.toNat < 0x110000 at hvalid
    omega
  unfold escapeChar
  by_cases hquote : c = '"'
  · rw [if_pos hquote, hquote]
    rfl
  rw [if_neg hquote]
  by_cases hslash : c = '\\'
  · rw [if_pos hslash, hslash]
    rfl
  rw [if_neg hslash]
  by_cases hnewline : c = '\n'
  · rw [if_pos hnewline, hnewline]
    rfl
  rw [if_neg hnewline]
  by_cases hreturn : c = '\r'
  · rw [if_pos hreturn, hreturn]
    rfl
  rw [if_neg hreturn]
  by_cases htab : c = '\t'
  · rw [if_pos htab, htab]
    rfl
  rw [if_neg htab]
  by_cases hback : c = '\x08'
  · rw [if_pos hback, hback]
    rfl
  rw [if_neg hback]
  by_cases hfeed : c = '\x0c'
  · rw [if_pos hfeed, hfeed]
    rfl
  rw [if_neg hfeed]
  by_cases hplain : 0x20 ≤ c.toNat ∧ c.toNat < 0x7F
  · rw [if_pos hplain]
    exact readString_plain hquote hslash hplain.1 rest
  rw [if_neg hplain]
  by_cases hunit : c.toNat < 0x10000
  · obtain ⟨hhigh, hlow⟩ := isSurrogate_toNat c
    rw [if_pos hunit, readString_escapeUnit hunit hhigh hlow, Char.ofNat_toNat]
  · rw [if_neg hunit]
    simp only [List.append_assoc]
    rw [readString_surrogates (by omega) hbound, Char.ofNat_toNat]

/-- **What is written as a string is read back**, up to its closing quotation mark. -/
theorem readString_flatMap_escapeChar (chars rest : List Char) :
    readString (chars.flatMap escapeChar ++ '"' :: rest) = .ok (chars, rest) := by
  induction chars with
  | nil => rfl
  | cons c chars ih =>
    rw [List.flatMap_cons, List.append_assoc, readString_escapeChar, ih]
    rfl

/-! ### Objects of strings -/

/-- The fields of a table of texts. -/
def textFields (entries : Assoc String String) : List (String × Json) :=
  entries.map fun (name, text) => (name, .string text)

/-- The characters of one field. -/
def fieldChars (entry : String × String) : List Char :=
  '"' :: (entry.1.toList.flatMap escapeChar ++
    '"' :: ':' :: ' ' :: '"' :: (entry.2.toList.flatMap escapeChar ++ ['"']))

/-- The characters of the fields, one field a line. -/
def fieldLines : List (String × String) → List Char
  | [] => []
  | [entry] => fieldChars entry
  | entry :: rest => fieldChars entry ++ ',' :: '\n' :: ' ' :: ' ' :: fieldLines rest

theorem toList_writeField (entry : String × String) :
    (writeString entry.1 ++ ": " ++ writeString entry.2).toList = fieldChars entry := by
  simp [writeString, fieldChars]

theorem toList_intercalate_prettyFields (entries : Assoc String String) :
    (("," ++ newLine 1).intercalate (prettyFields 1 (textFields entries))).toList = fieldLines entries := by
  induction entries with
  | nil => rfl
  | cons entry rest ih =>
    cases rest with
    | nil =>
      rw [fieldLines, ← toList_writeField]
      rfl
    | cons next rest =>
      have hlines : fieldLines (entry :: next :: rest) =
          fieldChars entry ++ ',' :: '\n' :: ' ' :: ' ' :: fieldLines (next :: rest) := rfl
      have hcons : prettyFields 1 (textFields (entry :: next :: rest)) =
          (writeString entry.1 ++ ": " ++ writeString entry.2) :: prettyFields 1 (textFields (next :: rest)) := rfl
      have hne : prettyFields 1 (textFields (next :: rest)) ≠ [] := nofun
      rw [hcons, String.intercalate_cons_of_ne_nil hne, String.toList_append, String.toList_append, ih,
        toList_writeField, hlines, List.append_assoc]
      rfl

theorem toList_pretty {entries : Assoc String String} (h : entries ≠ []) :
    (pretty (.object (textFields entries))).toList =
      '\x7b' :: '\n' :: ' ' :: ' ' :: (fieldLines entries ++ ['\n', '\x7d']) := by
  obtain ⟨entry, rest, rfl⟩ := List.exists_cons_of_ne_nil h
  have hparts := toList_intercalate_prettyFields (entry :: rest)
  change ("\x7b" ++ newLine 1 ++ ("," ++ newLine 1).intercalate (prettyFields 1 (textFields (entry :: rest))) ++
    newLine 0 ++ "\x7d").toList = _
  simp only [String.toList_append, hparts, List.append_assoc]
  rfl

theorem readFields_fieldChars (entry : String × String) (fuel : Nat) (rest : List Char) :
    readFields (fuel + 2) (fieldChars entry ++ rest) =
      (match skipSpace rest with
      | '\x7d' :: rest => .ok ([(entry.1, .string entry.2)], rest)
      | ',' :: rest =>
        (readFields (fuel + 1) (skipSpace rest)).map fun (fields, rest) => ((entry.1, .string entry.2) :: fields, rest)
      | _ => .error .malformed) := by
  have hskip : ∀ chars, skipSpace (':' :: chars) = ':' :: chars := fun _ => rfl
  have hvalue : ∀ chars, skipSpace (' ' :: '"' :: chars) = '"' :: chars := fun _ => rfl
  have hread : readValue (fuel + 1) ('"' :: (entry.2.toList.flatMap escapeChar ++ '"' :: rest)) =
      .ok (.string entry.2, rest) := by
    rw [readValue, readString_flatMap_escapeChar]
    simp [Except.map]
  simp only [fieldChars, List.cons_append, List.append_assoc, List.nil_append]
  rw [readFields]
  simp only [readString_flatMap_escapeChar, hskip, hvalue, hread, String.ofList_toList, bind, Except.bind, pure,
    Except.pure]
  split <;> simp_all [Except.map, throw, throwThe, MonadExceptOf.throw]

theorem fieldLines_eq_cons (entry : String × String) (rest : Assoc String String) :
    ∃ chars, fieldLines (entry :: rest) = '"' :: chars := by
  cases rest with
  | nil => exact ⟨_, rfl⟩
  | cons next rest => exact ⟨_, rfl⟩

theorem readFields_fieldLines {entries : Assoc String String} (h : entries ≠ []) (fuel : Nat)
    (hfuel : entries.length ≤ fuel) (rest : List Char) :
    readFields (fuel + 1) (fieldLines entries ++ '\n' :: '\x7d' :: rest) = .ok (textFields entries, rest) := by
  induction entries generalizing fuel with
  | nil => exact absurd rfl h
  | cons entry more ih =>
    obtain ⟨fuel, rfl⟩ : ∃ n, fuel = n + 1 := ⟨fuel - 1, by rw [List.length_cons] at hfuel; omega⟩
    cases more with
    | nil =>
      rw [fieldLines, readFields_fieldChars]
      rfl
    | cons next more =>
      obtain ⟨chars, hchars⟩ := fieldLines_eq_cons next more
      have hlines : fieldLines (entry :: next :: more) =
          fieldChars entry ++ ',' :: '\n' :: ' ' :: ' ' :: fieldLines (next :: more) := rfl
      have hskip : skipSpace ('\n' :: ' ' :: ' ' :: (fieldLines (next :: more) ++ '\n' :: '\x7d' :: rest)) =
          fieldLines (next :: more) ++ '\n' :: '\x7d' :: rest := by
        rw [hchars]
        rfl
      have hnext := ih (List.cons_ne_nil _ _) fuel (Nat.le_of_succ_le_succ hfuel)
      rw [hlines, List.append_assoc, readFields_fieldChars]
      change (readFields (fuel + 1) (skipSpace ('\n' :: ' ' :: ' ' :: (fieldLines (next :: more) ++ _)))).map _ = _
      rw [hskip, hnext]
      rfl

theorem length_le_fieldLines (entries : Assoc String String) : entries.length ≤ (fieldLines entries).length := by
  induction entries with
  | nil => exact Nat.le_refl 0
  | cons entry rest ih =>
    cases rest with
    | nil => simp [fieldLines, fieldChars]
    | cons next rest =>
      simp only [fieldLines, List.length_append, List.length_cons] at ih ⊢
      omega

/-- **A table of texts that is written as an object is read back**, of two fields with one name the later. -/
theorem read_pretty (entries : Assoc String String) :
    read ((object (textFields entries)).pretty ++ "\n") = .ok (.object (Assoc.ofList (textFields entries))) := by
  by_cases h : entries = []
  · subst h
    rfl
  obtain ⟨entry, rest, hcons⟩ := List.exists_cons_of_ne_nil h
  obtain ⟨chars, hquote⟩ := fieldLines_eq_cons entry rest
  rw [← hcons] at hquote
  have hchars : ((object (textFields entries)).pretty ++ "\n").toList =
      '\x7b' :: '\n' :: ' ' :: ' ' :: (fieldLines entries ++ ['\n', '\x7d', '\n']) := by
    rw [String.toList_append, toList_pretty h]
    simp
  have hskip : skipSpace ('\n' :: ' ' :: ' ' :: (fieldLines entries ++ ['\n', '\x7d', '\n'])) =
      fieldLines entries ++ ['\n', '\x7d', '\n'] := by
    rw [hquote]
    rfl
  have hvalue : readValue (('\n' :: ' ' :: ' ' :: (fieldLines entries ++ ['\n', '\x7d', '\n'])).length + 2)
      ('\x7b' :: '\n' :: ' ' :: ' ' :: (fieldLines entries ++ ['\n', '\x7d', '\n'])) =
        .ok (.object (Assoc.ofList (textFields entries)), ['\n']) := by
    have hfields := readFields_fieldLines h ('\n' :: ' ' :: ' ' :: (fieldLines entries ++ ['\n', '\x7d', '\n'])).length
      (by have := length_le_fieldLines entries; simp only [List.length_cons, List.length_append]; omega) ['\n']
    rw [readValue, hskip]
    split
    case h_1 hbrace =>
      rw [hquote] at hbrace
      cases hbrace
    case h_2 =>
      rw [hfields]
      rfl
  unfold read
  rw [hchars]
  change Except.bind (readValue (('\n' :: ' ' :: ' ' :: (fieldLines entries ++ ['\n', '\x7d', '\n'])).length + 2)
    ('\x7b' :: '\n' :: ' ' :: ' ' :: (fieldLines entries ++ ['\n', '\x7d', '\n']))) _ = _
  rw [hvalue]
  rfl

/-! ### Tables of texts -/

theorem insert_textFields (t : Assoc String String) (name text : String) :
    Assoc.insert (textFields t) name (.string text) = textFields (Assoc.insert t name text) := by
  induction t with
  | nil => rfl
  | cons entry rest ih =>
    have hcons : textFields (entry :: rest) = (entry.1, .string entry.2) :: textFields rest := rfl
    by_cases hname : entry.1 = name
    · rw [hcons, Assoc.insert, Assoc.insert, if_pos hname, if_pos hname]
      rfl
    · rw [hcons, Assoc.insert, Assoc.insert, if_neg hname, if_neg hname, ih]
      rfl

theorem ofList_textFields (entries : Assoc String String) :
    Assoc.ofList (textFields entries) = textFields (Assoc.ofList entries) := by
  have hall : ∀ t, Assoc.insertAll (textFields t) (textFields entries) = textFields (Assoc.insertAll t entries) := by
    induction entries with
    | nil => exact fun _ => rfl
    | cons entry rest ih =>
      intro t
      change Assoc.insertAll (Assoc.insert (textFields t) entry.1 (.string entry.2)) (textFields rest) = _
      rw [insert_textFields, ih]
      rfl
  exact hall []

theorem stringMap?_textFields (entries : Assoc String String) :
    (object (textFields entries)).stringMap? = some entries := by
  unfold stringMap? textFields
  induction entries with
  | nil => rfl
  | cons entry rest ih =>
    simp only [List.map_cons, List.mapM_cons, ih]
    rfl

end BuildPlan.Json
