import Mathlib.Data.Char
import TrafficWarden.Json.Reader
import TrafficWarden.Json.Writer

/-!
# Strings of JSON are read back

A string is written between quotes, with escapes for its quotes, backslashes and control characters.
Whatever is in a string, it is read back.
-/

namespace TrafficWarden.Json

theorem hexValue?_hexDigit {n : Nat} (h : n < 16) : Text.hexValue? (hexDigit n) = some n := by
  have hall : ∀ n : Fin 16, Text.hexValue? (hexDigit n.val) = some n.val := by decide
  exact hall ⟨n, h⟩

/-- The four digits of a control character are read back. -/
theorem readUnit_hexDigits {n : Nat} (h : n < 0x20) (rest : List Char) :
    readUnit ('0' :: '0' :: hexDigit (n / 16) :: hexDigit (n % 16) :: rest) = some (n, rest) := by
  have hzero : Text.hexValue? '0' = some 0 := by decide
  have hhigh := hexValue?_hexDigit (by omega : n / 16 < 16)
  have hlow := hexValue?_hexDigit (Nat.mod_lt n (by decide : 0 < 16))
  simp only [readUnit, hzero, hhigh, hlow, bind, Option.bind, pure, Option.some.injEq,
    Prod.mk.injEq, and_true]
  omega

/-- What is read of a string that has one more character in front. -/
def addFront (c : Char) (read : Option (List Char) × List Char) :
    Option (List Char) × List Char :=
  (read.1.map (c :: ·), read.2)

/-- An escape of one character is read as the character that it stands for. -/
theorem readString_simpleEscape {mark c : Char} (h : simpleEscape? mark = some c) (fuel : Nat)
    (cs : List Char) :
    readString (fuel + 1) ('\\' :: mark :: cs) = (readString fuel cs).map (addFront c) := by
  have hmark : mark ≠ 'u' := by
    rintro rfl
    exact absurd h (by simp [simpleEscape?])
  rw [readString, h]
  · cases readString fuel cs <;> rfl
  · rintro ⟨⟩
    exact hmark rfl

theorem readString_numbered {c : Char} (h : c.toNat < 0x20) (fuel : Nat) (cs : List Char) :
    readString (fuel + 1)
        ('\\' :: 'u' :: '0' :: '0' :: hexDigit (c.toNat / 16) :: hexDigit (c.toNat % 16) :: cs) =
      (readString fuel cs).map (addFront c) := by
  rw [readString, readUnit_hexDigits h]
  have hlow : ¬ 0xDC00 ≤ c.toNat := by omega
  have hhigh : ¬ 0xD800 ≤ c.toNat := by omega
  simp only [bind, Option.bind, hlow, hhigh, decide_false, Bool.false_and, Bool.false_eq_true,
    if_false, Char.ofNat_toNat]
  cases readString fuel cs <;> rfl

theorem readString_plain {c : Char} (hquote : c ≠ '"') (hslash : c ≠ '\\') (h : ¬ c.toNat < 0x20)
    (fuel : Nat) (cs : List Char) :
    readString (fuel + 1) (c :: cs) = (readString fuel cs).map (addFront c) := by
  rw [readString]
  · simp only [h, decide_false, beq_eq_false_iff_ne.mpr hslash, Bool.or_self, Bool.false_eq_true,
      if_false]
    cases readString fuel cs <;> rfl
  · rintro ⟨⟩
    exact hquote rfl
  · rintro _ ⟨⟩ -
    exact hslash rfl
  · rintro _ _ ⟨⟩ -
    exact hslash rfl

/-- A character is read back from what is written for it. -/
theorem readString_writeChar (c : Char) (fuel : Nat) (cs : List Char) :
    readString (fuel + 1) (writeChar c ++ cs) = (readString fuel cs).map (addFront c) := by
  have hnumber : ∀ n, c.toNat = n → c = Char.ofNat n := fun n hn => by
    rw [← hn, Char.ofNat_toNat]
  unfold writeChar
  split
  · subst c; exact readString_simpleEscape (by decide) fuel cs
  split
  · subst c; exact readString_simpleEscape (by decide) fuel cs
  split
  · subst c; exact readString_simpleEscape (by decide) fuel cs
  split
  · subst c; exact readString_simpleEscape (by decide) fuel cs
  split
  · subst c; exact readString_simpleEscape (by decide) fuel cs
  split
  · rename_i h
    rw [hnumber 8 h]
    exact readString_simpleEscape (by decide) fuel cs
  split
  · rename_i h
    rw [hnumber 12 h]
    exact readString_simpleEscape (by decide) fuel cs
  split
  · rename_i h
    exact readString_numbered h fuel cs
  · rename_i hquote hslash _ _ _ _ _ hcontrol
    exact readString_plain hquote hslash hcontrol fuel cs

theorem readString_written (s rest : List Char) (fuel : Nat) :
    readString (s.length + fuel + 1) (s.flatMap writeChar ++ '"' :: rest) =
      some (some s, rest) := by
  induction s generalizing fuel with
  | nil => rfl
  | cons c s ih =>
    have hfuel : (c :: s).length + fuel + 1 = (s.length + fuel + 1) + 1 := by
      simp only [List.length_cons]
      omega
    rw [List.flatMap_cons, List.append_assoc, hfuel, readString_writeChar, ih]
    rfl

theorem length_le_written (s : List Char) : s.length ≤ (s.flatMap writeChar).length := by
  have hone : ∀ c, 1 ≤ (writeChar c).length := fun c => by
    unfold writeChar
    split_ifs <;> simp
  induction s with
  | nil => exact Nat.le_refl 0
  | cons c s ih =>
    rw [List.flatMap_cons, List.length_append, List.length_cons]
    have := hone c
    omega

theorem toList_quoted (s : String) :
    (quoted s).toList = '"' :: (s.toList.flatMap writeChar ++ ['"']) := by
  simp [quoted]

theorem toList_quoted_append (s : String) (rest : List Char) :
    (quoted s).toList ++ rest = '"' :: (s.toList.flatMap writeChar ++ '"' :: rest) := by
  simp [toList_quoted]

/-- The length of what is left is fuel enough for a string. -/
theorem readString_to_quote (s rest : List Char) :
    readString ((s.flatMap writeChar ++ '"' :: rest).length + 1)
      (s.flatMap writeChar ++ '"' :: rest) = some (some s, rest) := by
  obtain ⟨more, hmore⟩ := Nat.exists_eq_add_of_le (length_le_written s)
  rw [List.length_append, hmore, Nat.add_assoc s.length]
  exact readString_written s rest (more + ('"' :: rest).length)

/-- A string is read back from the text that is written for it, and what follows is left. -/
theorem readValue_quoted (s : String) (fuel : Nat) (rest : List Char) :
    readValue (fuel + 1) ((quoted s).toList ++ rest) = some (.string s, rest) := by
  have hread := readString_to_quote s.toList rest
  rw [toList_quoted_append]
  generalize s.toList.flatMap writeChar ++ '"' :: rest = written at hread
  simp [readValue, skipSpace, isSpace, hread]

theorem read?_quoted (s : String) : read? (quoted s) = some (.string s) := by
  have hvalue := readValue_quoted s (2 * (quoted s).toList.length) []
  rw [List.append_nil] at hvalue
  rw [read?, hvalue]
  rfl

end TrafficWarden.Json
