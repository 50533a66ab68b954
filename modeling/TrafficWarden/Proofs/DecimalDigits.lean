import Mathlib.Data.List.Basic
import TrafficWarden.Text.Numeral

/-!
# Decimal digits of natural numbers

What is written for a natural number are digits of that value, and it begins with a zero only if it
is the zero.
-/

namespace TrafficWarden.Text

theorem digitChar_ne_zero {d : Nat} (h : d < 10) (hd : d ≠ 0) : d.digitChar ≠ '0' := by
  have hall : ∀ n : Fin 10, n.val ≠ 0 → Nat.digitChar n.val ≠ '0' := by decide
  exact hall ⟨d, h⟩ hd

theorem isDigit_toDigits (n : Nat) : ∀ c ∈ Nat.toDigits 10 n, isDigit c = true :=
  fun _ h => Nat.isDigit_of_mem_toDigits (by decide) (by decide) h

theorem digitsValue_toDigits (n : Nat) : digitsValue (Nat.toDigits 10 n) = n := by
  have hread := Nat.ofDigitChars_toDigits (b := 10) (n := n) (by decide) (by decide)
  rw [Nat.ofDigitChars] at hread
  simpa [digitsValue, Nat.mul_comm] using hread

/-- Only zero begins with a zero. -/
theorem toDigits_cases (n : Nat) :
    Nat.toDigits 10 n = ['0'] ∨ ∃ c cs, Nat.toDigits 10 n = c :: cs ∧ c ≠ '0' := by
  induction n using Nat.base_induction 10 (by decide) with
  | single m hm =>
    rw [Nat.toDigits_of_lt_base hm]
    rcases Nat.eq_zero_or_pos m with rfl | hpos
    · exact .inl rfl
    · exact .inr ⟨_, [], rfl, digitChar_ne_zero hm (Nat.ne_of_gt hpos)⟩
  | digit m k hk hm ih =>
    rw [← Nat.toDigits_append_toDigits (by decide) hm hk]
    rcases ih with hzero | ⟨c, cs, heq, hc⟩
    · have hvalue := digitsValue_toDigits m
      rw [hzero] at hvalue
      exact absurd hvalue (Nat.ne_of_lt hm)
    · exact .inr ⟨c, cs ++ Nat.toDigits 10 k, by rw [heq, List.cons_append], hc⟩

theorem exists_toDigits_cons (n : Nat) :
    ∃ c cs, Nat.toDigits 10 n = c :: cs ∧ isDigit c = true := by
  have hdigits := isDigit_toDigits n
  rcases toDigits_cases n with heq | ⟨c, cs, heq, -⟩
  · exact ⟨'0', [], heq, rfl⟩
  · exact ⟨c, cs, heq, hdigits c (heq ▸ List.mem_cons_self)⟩

end TrafficWarden.Text
