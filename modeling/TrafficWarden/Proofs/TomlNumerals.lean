import TrafficWarden.Proofs.DecimalDigits
import TrafficWarden.Toml.Reader

/-!
# Numbers of TOML are read back

The digits of a number of 64 bits are no date and no fraction, and they are read as that number.
-/

namespace TrafficWarden.Toml

open Text (isDigit_toDigits digitsValue_toDigits toDigits_cases exists_toDigits_cons)

variable {c : Char} {cs ds rest : List Char}

theorem readDigitTail_of_digits (h : ∀ c ∈ ds, Text.isDigit c = true) :
    readDigitTail Text.isDigit (ds ++ '\n' :: rest) = some (ds, '\n' :: rest) := by
  induction ds with
  | nil => rfl
  | cons d ds ih =>
    rw [List.forall_mem_cons] at h
    have hmark : d ≠ '_' := by
      rintro rfl
      exact absurd h.1 (by decide)
    simp [readDigitTail, hmark, h.1, ih h.2]

/-- After digits that are cut off there are digits again, or the end of the line. -/
theorem readFixed_of_digits {width n : Nat} (h : ∀ c ∈ ds, Text.isDigit c = true)
    (hread : readFixed width (ds ++ '\n' :: rest) = some (n, cs)) :
    ∃ ds', (∀ c ∈ ds', Text.isDigit c = true) ∧ cs = ds' ++ '\n' :: rest := by
  unfold readFixed at hread
  simp only [] at hread
  split at hread
  · rename_i hdigits
    simp only [Bool.and_eq_true, decide_eq_true_eq, List.all_eq_true] at hdigits
    obtain rfl := (Prod.mk.inj (Option.some.inj hread)).2
    by_cases hwidth : width ≤ ds.length
    · exact ⟨ds.drop width, fun c hc => h c (List.mem_of_mem_drop hc),
        List.drop_append_of_le_length hwidth⟩
    · have hbreak : '\n' ∈ (ds ++ '\n' :: rest).take width := by
        rw [List.take_append, List.take_of_length_le (by omega),
          show width - ds.length = (width - ds.length - 1) + 1 by omega, List.take_succ_cons]
        simp
      exact absurd (hdigits.2 _ hbreak) (by decide)
  · cases hread

theorem readMark_of_digits (mark : Char) (rest : List Char) (hmark : Text.isDigit mark = false)
    (hline : mark ≠ '\n') (h : ∀ c ∈ ds, Text.isDigit c = true) :
    readMark mark (ds ++ '\n' :: rest) = none := by
  cases ds with
  | nil => simp [readMark, Ne.symm hline]
  | cons d ds =>
    have hne : d ≠ mark := by
      rintro rfl
      rw [h d List.mem_cons_self] at hmark
      cases hmark
    simp [readMark, hne]

theorem readDatetime_of_digits (h : ∀ c ∈ ds, Text.isDigit c = true) :
    readDatetime (ds ++ '\n' :: rest) = none := by
  have hdate : readFullDate (ds ++ '\n' :: rest) = none := by
    unfold readFullDate
    cases hyear : readFixed 4 (ds ++ '\n' :: rest) with
    | none => rfl
    | some found =>
      obtain ⟨year, after⟩ := found
      obtain ⟨ds', hdigits, rfl⟩ := readFixed_of_digits h hyear
      simp [readMark_of_digits '-' rest (by decide) (by decide) hdigits]
  have htime : readPartialTime (ds ++ '\n' :: rest) = none := by
    unfold readPartialTime
    cases hhour : readFixed 2 (ds ++ '\n' :: rest) with
    | none => rfl
    | some found =>
      obtain ⟨hour, after⟩ := found
      obtain ⟨ds', hdigits, rfl⟩ := readFixed_of_digits h hhour
      simp [readMark_of_digits ':' rest (by decide) (by decide) hdigits]
  simp [readDatetime, skipDatetime, hdate, htime]

theorem readDecimal_toDigits (n : Nat) (rest : List Char) :
    readDecimal (Nat.toDigits 10 n ++ '\n' :: rest) =
      some (Nat.toDigits 10 n, '\n' :: rest) := by
  have hdigits := isDigit_toDigits n
  rcases toDigits_cases n with heq | ⟨c, cs, heq, hc⟩
  · rw [heq]
    rfl
  · rw [heq] at hdigits ⊢
    rw [List.forall_mem_cons] at hdigits
    simp [readDecimal, hc, readDigitRun, hdigits.1, readDigitTail_of_digits hdigits.2]

theorem readSign_of_digit (h : Text.isDigit c = true) (cs : List Char) :
    readSign (c :: cs) = ([], c :: cs) := by
  unfold readSign
  split
  · rename_i heq
    obtain rfl := (List.cons.inj heq).1
    exact absurd h (by decide)
  · rename_i heq
    obtain rfl := (List.cons.inj heq).1
    exact absurd h (by decide)
  · rfl

theorem readValue_of_digit (h : Text.isDigit c = true) (depth : Nat) (cs : List Char) :
    readValue depth (c :: cs) = readNumber (c :: cs) := by
  unfold readValue
  split
  all_goals first
    | rfl
    | rename_i heq
      obtain rfl := (List.cons.inj heq).1
      exact absurd h (by decide)

theorem readSign_toDigits (n : Nat) (rest : List Char) :
    readSign (Nat.toDigits 10 n ++ rest) = ([], Nat.toDigits 10 n ++ rest) := by
  obtain ⟨c, cs, heq, hc⟩ := exists_toDigits_cons n
  rw [heq]
  exact readSign_of_digit hc (cs ++ rest)

/-- A number that neither a point nor an exponent follows is no fraction. -/
theorem readFloat_toDigits (n : Nat) (rest : List Char) :
    readFloat (Nat.toDigits 10 n ++ '\n' :: rest) = none := by
  have hexponent : readExponent ('\n' :: rest) = none := rfl
  unfold readFloat
  rw [readSign_toDigits]
  obtain ⟨c, cs, heq, hc⟩ := exists_toDigits_cons n
  have hdecimal := readDecimal_toDigits n rest
  rw [heq, List.cons_append] at hdecimal ⊢
  dsimp only
  split
  · rename_i hname
    obtain rfl := (List.cons.inj hname).1
    exact absurd hc (by decide)
  · rename_i hname
    obtain rfl := (List.cons.inj hname).1
    exact absurd hc (by decide)
  · simp [hdecimal, hexponent]

/-- No letter of a radix follows a leading zero. -/
theorem toDigits_append_ne {n : Nat} {mark : Char} (hmark : mark ≠ '\n') (rest tail : List Char) :
    Nat.toDigits 10 n ++ '\n' :: rest ≠ '0' :: mark :: tail := by
  intro heq
  rcases toDigits_cases n with hzero | ⟨c, cs, hcons, hc⟩
  · rw [hzero] at heq
    exact hmark (List.cons.inj (List.cons.inj heq).2).1.symm
  · rw [hcons] at heq
    exact hc (List.cons.inj heq).1

theorem readInteger_toDigits {n : Nat} (h : (n : Int) ≤ Text.Bounds.int64.greatest)
    (rest : List Char) :
    readInteger (Nat.toDigits 10 n ++ '\n' :: rest) = some (.integer n, '\n' :: rest) := by
  have hbounded : bounded? (n : Int) = some (n : Int) := by
    have hleast : Text.Bounds.int64.least ≤ n := Int.le_trans (by decide) (Int.natCast_nonneg n)
    simp [bounded?, Text.Bounds.admits, hleast, h]
  unfold readInteger
  split
  · rename_i heq
    exact absurd heq (toDigits_append_ne (by decide) _ _)
  · rename_i heq
    exact absurd heq (toDigits_append_ne (by decide) _ _)
  · rename_i heq
    exact absurd heq (toDigits_append_ne (by decide) _ _)
  · rw [readSign_toDigits]
    simp [readDecimal_toDigits, digitsValue_toDigits, hbounded]

/-- A number that fits is read back from its digits. -/
theorem readValue_toDigits {n : Nat} (h : (n : Int) ≤ Text.Bounds.int64.greatest) (depth : Nat)
    (rest : List Char) :
    readValue depth (Nat.toDigits 10 n ++ '\n' :: rest) = some (.integer n, '\n' :: rest) := by
  have hnumber : readNumber (Nat.toDigits 10 n ++ '\n' :: rest) =
      some (.integer n, '\n' :: rest) := by
    rw [readNumber, readDatetime_of_digits (isDigit_toDigits n), readFloat_toDigits,
      readInteger_toDigits h]
    rfl
  obtain ⟨c, cs, heq, hc⟩ := exists_toDigits_cons n
  rw [heq, List.cons_append] at hnumber ⊢
  rw [readValue_of_digit hc, hnumber]

end TrafficWarden.Toml
