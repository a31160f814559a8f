import BuildPlan.Numeral.Integer
import BuildPlan.Proofs.Text.Hex
import Mathlib.Data.List.Induction
import Mathlib.Data.List.TakeWhile
import Mathlib.Data.Nat.Digits.Defs

/-!
# Integers read back

The text of an integer is read back as that integer, unless it has more digits than are read. No integer that is read
has more digits than that.
-/

namespace BuildPlan.Numeral

open Text (isNumeralBlank isDecimalDigit decimalValue?)

theorem decimalValue?_digitChar {d : Nat} (h : d < 10) : decimalValue? (Nat.digitChar d) = some d := by
  have hall : ∀ d : Fin 10, decimalValue? (Nat.digitChar d) = some d.val := by decide
  exact hall ⟨d, h⟩

theorem digitChar_ne {d : Nat} (h : d < 10) :
    Nat.digitChar d ≠ '_' ∧ Nat.digitChar d ≠ '-' ∧ Nat.digitChar d ≠ '+' ∧
      isNumeralBlank (Nat.digitChar d) = false := by
  have hall : ∀ d : Fin 10, Nat.digitChar d ≠ '_' ∧ Nat.digitChar d ≠ '-' ∧ Nat.digitChar d ≠ '+' ∧
      isNumeralBlank (Nat.digitChar d) = false := by decide
  exact hall ⟨d, h⟩

theorem isDecimalDigit_digitChar {d : Nat} (h : d < 10) : isDecimalDigit (Nat.digitChar d) = true := by
  rw [isDecimalDigit, decimalValue?_digitChar h]
  rfl

section digits

variable {chars : List Char} (h : ∀ c ∈ chars, ∃ d < 10, c = Nat.digitChar d)
include h

theorem isDigitRun_of_digits (hne : chars ≠ []) : isDigitRun chars = true := by
  induction chars with
  | nil => exact absurd rfl hne
  | cons c rest ih =>
    obtain ⟨⟨d, hd, rfl⟩, hrest⟩ := List.forall_mem_cons.mp h
    cases rest with
    | nil => exact isDecimalDigit_digitChar hd
    | cons c' rest =>
      obtain ⟨⟨d', hd', rfl⟩, -⟩ := List.forall_mem_cons.mp hrest
      rw [isDigitRun.eq_def]
      split
      case h_1 heq => cases heq
      case h_2 heq => cases heq
      case h_3 heq =>
        obtain ⟨-, heq⟩ := List.cons.inj heq
        exact absurd (List.cons.inj heq).1 (digitChar_ne hd').1
      case h_4 heq =>
        obtain ⟨rfl, rfl⟩ := List.cons.inj heq
        rw [isDecimalDigit_digitChar hd, ih hrest (List.cons_ne_nil _ _)]
        rfl

theorem filterMap_decimalValue? : chars.filterMap decimalValue? = chars.map fun c => c.toNat - '0'.toNat := by
  induction chars with
  | nil => rfl
  | cons c rest ih =>
    obtain ⟨⟨d, hd, rfl⟩, hrest⟩ := List.forall_mem_cons.mp h
    have hvalue : (Nat.digitChar d).toNat - '0'.toNat = d := Nat.toNat_digitChar_sub_48_of_lt_ten hd
    rw [List.filterMap_cons, decimalValue?_digitChar hd, ih hrest, List.map_cons, hvalue]

end digits

theorem valueOfDigits_map (chars : List Char) :
    valueOfDigits (chars.map fun c => c.toNat - '0'.toNat) = Nat.ofDigitChars 10 chars 0 := by
  rw [valueOfDigits, List.foldl_map, Nat.ofDigitChars_eq_foldl]

theorem mem_toDigits {n : Nat} : ∀ c ∈ Nat.toDigits 10 n, ∃ d < 10, c = Nat.digitChar d := fun _ hc =>
  Text.exists_of_mem_toDigits (by omega) n hc

theorem readInteger_of_takeSign {text : String} {negative : Bool} {n : Nat}
    (hsign : takeSign (text.toList.dropWhile isNumeralBlank) = (negative, Nat.toDigits 10 n))
    (hlength : (Nat.toDigits 10 n).length ≤ digitLimit) :
    readInteger text = .ok (if negative then -(n : Int) else n) := by
  have hpart : ∀ c ∈ Nat.toDigits 10 n, (decide (c = '_') || isDecimalDigit c) = true := by
    intro c hc
    obtain ⟨d, hd, rfl⟩ := mem_toDigits c hc
    rw [isDecimalDigit_digitChar hd, Bool.or_true]
  have hrun : (Nat.toDigits 10 n).takeWhile (fun c => decide (c = '_') || isDecimalDigit c) = Nat.toDigits 10 n := by
    rw [List.takeWhile_eq_self_iff]
    exact hpart
  have hrest : (Nat.toDigits 10 n).dropWhile (fun c => decide (c = '_') || isDecimalDigit c) = [] := by
    rw [List.dropWhile_eq_nil_iff]
    exact hpart
  have hdigits : (Nat.toDigits 10 n).filterMap decimalValue? = (Nat.toDigits 10 n).map fun c => c.toNat - '0'.toNat :=
    filterMap_decimalValue? mem_toDigits
  have hvalue : valueOfDigits ((Nat.toDigits 10 n).filterMap decimalValue?) = n := by
    rw [hdigits, valueOfDigits_map, Nat.ofDigitChars_ten_toDigits]
  have hcount : ((Nat.toDigits 10 n).filterMap decimalValue?).length = (Nat.toDigits 10 n).length := by
    rw [hdigits, List.length_map]
  unfold readInteger
  rw [hsign]
  simp only [hrun, hrest, hvalue, hcount, isDigitRun_of_digits mem_toDigits Nat.toDigits_ne_nil]
  rw [if_neg (by decide), if_neg (by omega), if_neg (by decide)]

theorem toList_toString (n : Int) :
    (toString n).toList = if n < 0 then '-' :: Nat.toDigits 10 n.natAbs else Nat.toDigits 10 n.natAbs := by
  rw [Int.toString_eq_repr, Int.repr_eq_if]
  by_cases h : n < 0
  · rw [if_neg (by omega), if_pos h, String.toList_append, Nat.toList_repr, show (-n).toNat = n.natAbs by omega]
    rfl
  · rw [if_pos (by omega), if_neg h, Nat.toList_repr, show n.toNat = n.natAbs by omega]

/-- **The text of an integer is read back**, if it is not too long. -/
theorem readInteger_toString {n : Int} (h : (Nat.toDigits 10 n.natAbs).length ≤ digitLimit) :
    readInteger (toString n) = .ok n := by
  by_cases hn : n < 0
  · have hsign : takeSign ((toString n).toList.dropWhile isNumeralBlank) = (true, Nat.toDigits 10 n.natAbs) := by
      have hblank : isNumeralBlank '-' = false := by decide
      rw [toList_toString, if_pos hn, List.dropWhile_cons_of_neg (by rw [hblank]; decide)]
      rfl
    rw [readInteger_of_takeSign hsign h, if_pos rfl]
    congr 1
    omega
  · have hsign : takeSign ((toString n).toList.dropWhile isNumeralBlank) = (false, Nat.toDigits 10 n.natAbs) := by
      rw [toList_toString, if_neg hn]
      obtain ⟨c, rest, hcons⟩ := List.exists_cons_of_ne_nil (Nat.toDigits_ne_nil (n := n.natAbs) (b := 10))
      obtain ⟨d, hd, rfl⟩ := mem_toDigits c (by rw [hcons]; exact List.mem_cons_self)
      obtain ⟨-, hminus, hplus, hblank⟩ := digitChar_ne hd
      rw [hcons, List.dropWhile_cons_of_neg (by rw [hblank]; decide)]
      unfold takeSign
      split
      case h_1 heq => exact absurd (List.cons.inj heq).1 hminus
      case h_2 heq => exact absurd (List.cons.inj heq).1 hplus
      case h_3 => rfl
    rw [readInteger_of_takeSign hsign h, if_neg (by decide)]
    congr 1
    omega

/-! ### Lengths -/

theorem lt_of_decimalValue? {c : Char} {d : Nat} (h : decimalValue? c = some d) : d < 10 := by
  obtain ⟨base, hbase, rfl⟩ := Option.map_eq_some_iff.mp h
  have hrange := List.find?_some hbase
  simp only [Bool.and_eq_true, decide_eq_true_eq] at hrange
  omega

theorem valueOfDigits_concat (digits : List Nat) (d : Nat) :
    valueOfDigits (digits ++ [d]) = 10 * valueOfDigits digits + d := by
  rw [valueOfDigits, List.foldl_append]
  rfl

theorem valueOfDigits_lt {digits : List Nat} (h : ∀ d ∈ digits, d < 10) : valueOfDigits digits < 10 ^ digits.length := by
  induction digits using List.reverseRecOn with
  | nil => decide
  | append_singleton digits d ih =>
    have hd : d < 10 := h d (List.mem_append_right _ List.mem_cons_self)
    have hvalue := ih fun e he => h e (List.mem_append_left _ he)
    rw [valueOfDigits_concat, List.length_append, List.length_singleton, Nat.pow_succ]
    omega

/-- An integer that has been read has no more digits than are read. -/
theorem length_toDigits_of_readInteger {text : String} {n : Int} (h : readInteger text = .ok n) :
    (Nat.toDigits 10 n.natAbs).length ≤ digitLimit := by
  unfold readInteger at h
  split at h
  next negative body _ =>
  simp only at h
  split at h
  · cases h
  split at h
  · cases h
  case isFalse hlimit =>
  split at h
  · cases h
  cases h
  set digits := (body.takeWhile fun c => decide (c = '_') || isDecimalDigit c).filterMap decimalValue? with hdigits
  have hsmall : ∀ d ∈ digits, d < 10 := by
    intro d hd
    obtain ⟨c, -, hc⟩ := List.mem_filterMap.mp hd
    exact lt_of_decimalValue? hc
  have hlt : valueOfDigits digits < 10 ^ digitLimit :=
    Nat.lt_of_lt_of_le (valueOfDigits_lt hsmall) (Nat.pow_le_pow_right (by omega) (by omega))
  apply Nat.toDigits_length 10 _ digitLimit (by decide)
  cases negative
  · simpa using hlt
  · simpa using hlt

end BuildPlan.Numeral
