import BuildPlan.Flag.Definition
import BuildPlan.Proofs.Numeral.Integer

/-!
# Flag values read back

What a flag writes of a value of its own type, it reads back as a value that it writes in the same way. Of numbers with
a fraction this holds where it holds of the number.
-/

namespace BuildPlan

/-- The text of the number is read as a number with this text. -/
def Numeral.Binary64.ReadsBack (x : Numeral.Binary64) : Prop :=
  ∃ y, Numeral.readDecimal x.render = some y ∧ y.render = x.render

namespace Flag

variable {f : Flag} {value : FlagValue}

/-- The flag writes two values in the same way. -/
structure Alike (f : Flag) (a b : FlagValue) : Prop where
  format : f.format a = f.format b
  isTooLong : f.isTooLong a = f.isTooLong b

theorem Alike.refl (f : Flag) (a : FlagValue) : f.Alike a a := ⟨rfl, rfl⟩

theorem kind_of_parse {text : String} (h : f.parse text = .ok value) : value.kind = f.kind := by
  unfold parse at h
  split at h
  case h_1 hkind =>
    cases h
    exact hkind.symm
  case h_2 hkind =>
    split at h
    · cases h
      exact hkind.symm
    · split at h
      · cases h
        exact hkind.symm
      · cases h
  case h_3 hkind =>
    split at h
    · cases h
      exact hkind.symm
    · cases h
  case h_4 hkind =>
    split at h
    · cases h
      exact hkind.symm
    · cases h

theorem isTooLong_of_parse {text : String} (h : f.parse text = .ok value) : f.isTooLong value = false := by
  have hkind := kind_of_parse h
  unfold isTooLong
  cases value with
  | string _ | bool _ | float _ => split <;> rfl
  | int n =>
    have hint : f.kind = .int := hkind.symm
    rw [parse, hint] at h
    cases hread : Numeral.readInteger text with
    | error why =>
      rw [hread] at h
      cases h
    | ok m =>
      rw [hread] at h
      cases h
      have hlength := Numeral.length_toDigits_of_readInteger hread
      rw [hint]
      simpa [FlagValue.isTooLong] using hlength

/-- **What a flag writes of a value of its own type is read back as a value that looks the same.** -/
theorem parse_format (hkind : value.kind = f.kind) (hlong : f.isTooLong value = false)
    (hfloat : ∀ x, value = .float x → x.ReadsBack) :
    ∃ value', f.parse (f.format value) = .ok value' ∧ f.Alike value value' := by
  cases value with
  | string text =>
    refine ⟨.string text, ?_, .refl f _⟩
    rw [format, parse, ← hkind]
    rfl
  | bool b =>
    refine ⟨.bool b, ?_, .refl f _⟩
    rw [format, parse, ← hkind]
    cases b <;> rfl
  | int n =>
    refine ⟨.int n, ?_, .refl f _⟩
    have hlength : (Nat.toDigits 10 n.natAbs).length ≤ Numeral.digitLimit := by
      rw [Flag.isTooLong, ← hkind] at hlong
      simpa [FlagValue.kind, FlagValue.isTooLong] using hlong
    rw [format, parse, ← hkind]
    simp only [FlagValue.kind, FlagValue.text, Numeral.readInteger_toString hlength]
  | float x =>
    obtain ⟨y, hread, hrender⟩ := hfloat x rfl
    refine ⟨.float y, ?_, ⟨?_, ?_⟩⟩
    · rw [format, parse, ← hkind]
      simp only [FlagValue.kind, FlagValue.widened, FlagValue.text, hread]
    · rw [format, format, ← hkind]
      simp only [FlagValue.kind, FlagValue.widened, FlagValue.text, hrender]
    · rw [Flag.isTooLong, Flag.isTooLong, ← hkind]
      rfl

end Flag

end BuildPlan
