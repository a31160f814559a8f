import BuildPlan.Text.Hex

/-!
# Digits read back

The digits of a number are those of its base. `hexPadded` writes digits that `hexValue?` knows, at least as many as it
is asked for, and four of them spell out a number below `16 ^ 4` place by place.
-/

namespace BuildPlan.Text

theorem hexValue?_digitChar {d : Nat} (h : d < 16) : hexValue? (Nat.digitChar d) = some d := by
  have hall : ∀ d : Fin 16, hexValue? (Nat.digitChar d) = some d.val := by decide
  exact hall ⟨d, h⟩

theorem exists_of_mem_toDigits {base : Nat} (hbase : 1 < base) {c : Char} (n : Nat) (hc : c ∈ Nat.toDigits base n) :
    ∃ d < base, c = Nat.digitChar d := by
  induction n using Nat.strongRecOn with
  | ind n ih =>
    by_cases hn : n < base
    · rw [Nat.toDigits_of_lt_base hn, List.mem_singleton] at hc
      exact ⟨n, hn, hc⟩
    · rw [Nat.toDigits_of_base_le hbase (by omega), List.mem_append, List.mem_singleton] at hc
      rcases hc with hc | rfl
      · exact ih (n / base) (Nat.div_lt_self (by omega) hbase) hc
      · exact ⟨n % base, Nat.mod_lt _ (by omega), rfl⟩

theorem exists_of_mem_hexPadded {width n : Nat} {c : Char} (hc : c ∈ hexPadded width n) :
    ∃ d < 16, c = Nat.digitChar d := by
  rcases List.mem_append.mp hc with hc | hc
  · rw [List.eq_of_mem_replicate hc]
    exact ⟨0, by omega, rfl⟩
  · exact exists_of_mem_toDigits (by omega) n hc

theorem le_length_hexPadded (width n : Nat) : width ≤ (hexPadded width n).length := by
  unfold hexPadded
  simp only [List.length_append, List.length_replicate]
  omega

theorem hexPadded_four {n : Nat} (h : n < 65536) :
    hexPadded 4 n =
      [Nat.digitChar (n / 4096), Nat.digitChar (n / 256 % 16), Nat.digitChar (n / 16 % 16),
        Nat.digitChar (n % 16)] := by
  have hstep : ∀ m, 16 ≤ m → Nat.toDigits 16 m = Nat.toDigits 16 (m / 16) ++ [Nat.digitChar (m % 16)] := fun m hm =>
    Nat.toDigits_of_base_le (by omega) hm
  have hlast : ∀ m, m < 16 → Nat.toDigits 16 m = [Nat.digitChar m] := fun m hm => Nat.toDigits_of_lt_base hm
  unfold hexPadded
  rcases Nat.lt_or_ge n 16 with h₁ | h₁
  · rw [hlast n h₁, show n / 4096 = 0 by omega, show n / 256 % 16 = 0 by omega, show n / 16 % 16 = 0 by omega,
      show n % 16 = n by omega]
    rfl
  · rw [hstep n h₁]
    rcases Nat.lt_or_ge n 256 with h₂ | h₂
    · rw [hlast (n / 16) (by omega), show n / 4096 = 0 by omega, show n / 256 % 16 = 0 by omega,
        show n / 16 % 16 = n / 16 by omega]
      rfl
    · rw [hstep (n / 16) (by omega)]
      rcases Nat.lt_or_ge n 4096 with h₃ | h₃
      · rw [hlast (n / 16 / 16) (by omega), show n / 4096 = 0 by omega, show n / 256 % 16 = n / 16 / 16 by omega]
        rfl
      · rw [hstep (n / 16 / 16) (by omega), hlast (n / 16 / 16 / 16) (by omega),
          show n / 4096 = n / 16 / 16 / 16 by omega, show n / 256 = n / 16 / 16 by omega]
        rfl

end BuildPlan.Text
