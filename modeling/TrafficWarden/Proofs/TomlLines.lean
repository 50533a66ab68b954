import TrafficWarden.Proofs.TomlNumerals
import TrafficWarden.Proofs.TomlStrings

/-!
# Lines of TOML documents are read back

A document of headers and assignments with bare keys, each on a line of its own, is read into its
statements.
-/

namespace TrafficWarden.Toml

/-- Text of a key that needs no quotes. -/
def IsBare (name : List Char) : Prop := name ≠ [] ∧ name.all isBareKeyChar = true

instance (name : List Char) : Decidable (IsBare name) :=
  inferInstanceAs (Decidable (name ≠ [] ∧ name.all isBareKeyChar = true))

/-- A value and its text, as it is read from the rest of a line. -/
structure Written (written : List Char) (v : Toml) : Prop where
  head : ∀ c ∈ written.head?, isBlank c = false
  read : ∀ depth rest, readValue depth (written ++ '\n' :: rest) = some (v, '\n' :: rest)

/-- A document of lines, and what they say. -/
inductive Lines : List Char → List Statement → Prop
  | nil : Lines [] []
  | blank {cs : List Char} {statements : List Statement} (h : Lines cs statements) :
    Lines ('\n' :: cs) statements
  | header {name cs : List Char} {statements : List Statement} (hname : IsBare name)
    (h : Lines cs statements) :
    Lines ('[' :: (name ++ ']' :: '\n' :: cs)) (.table [] (.ofList name) :: statements)
  | assignment {name written cs : List Char} {v : Toml} {statements : List Statement}
    (hname : IsBare name) (hvalue : Written written v) (h : Lines cs statements) :
    Lines (name ++ ' ' :: '=' :: ' ' :: (written ++ '\n' :: cs))
      (.assign [] (.ofList name) v :: statements)

variable {name written cs rest : List Char} {v : Toml} {statements : List Statement}

theorem skipBlanks_of_head (h : ∀ c ∈ cs.head?, isBlank c = false) : skipBlanks cs = cs := by
  cases cs with
  | nil => rfl
  | cons c cs => simp [skipBlanks, h c rfl]

section values

theorem writeChars_cons (cs : List Char) :
    ∃ tail, writeChars cs = '"' :: tail ∨ writeChars cs = '\'' :: tail := by
  unfold writeChars
  split
  · exact ⟨_, .inl rfl⟩
  · exact ⟨_, .inr rfl⟩
  · exact ⟨_, .inl rfl⟩
  · exact ⟨_, .inr rfl⟩

theorem written_writeChars (cs : List Char) : Written (writeChars cs) (.string (.ofList cs)) := by
  obtain ⟨tail, heq | heq⟩ := writeChars_cons cs
  all_goals
    refine ⟨?_, fun depth rest => ?_⟩
    · rw [heq]
      rintro c ⟨⟩
      decide
    · have hread := readString_writeChars cs ('\n' :: rest) (by simp) (by simp)
      rw [heq, List.cons_append] at hread ⊢
      simp [readValue, hread]

theorem written_toDigits {n : Nat} (h : (n : Int) ≤ Text.Bounds.int64.greatest) :
    Written (Nat.toDigits 10 n) (.integer n) := by
  refine ⟨?_, fun depth rest => readValue_toDigits h depth rest⟩
  obtain ⟨c, cs, heq, hc⟩ := Text.exists_toDigits_cons n
  rw [heq]
  rintro c ⟨⟩
  cases hblank : isBlank c with
  | false => rfl
  | true =>
    rcases Bool.or_eq_true _ _ ▸ hblank with h | h
    all_goals
      obtain rfl := eq_of_beq h
      exact absurd hc (by decide)

theorem Written.skipBlanks (h : Written written v) (rest : List Char) :
    skipBlanks (' ' :: (written ++ '\n' :: rest)) = written ++ '\n' :: rest := by
  have hhead : ∀ c ∈ (written ++ '\n' :: rest).head?, isBlank c = false := by
    cases written with
    | nil =>
      rintro c ⟨⟩
      decide
    | cons c written => exact h.head
  exact skipBlanks_of_head hhead

end values

section keys

theorem IsBare.exists_cons (h : IsBare name) :
    ∃ c tail, name = c :: tail ∧ isBareKeyChar c = true := by
  obtain ⟨c, tail, rfl⟩ := List.exists_cons_of_ne_nil h.1
  exact ⟨c, tail, rfl, List.all_eq_true.1 h.2 c List.mem_cons_self⟩

theorem ne_of_isBareKeyChar {c x : Char} (hc : isBareKeyChar c = true)
    (hx : isBareKeyChar x = false) : c ≠ x := by
  rintro rfl
  rw [hc] at hx
  cases hx

theorem isBlank_of_isBareKeyChar {c : Char} (hc : isBareKeyChar c = true) : isBlank c = false := by
  simp [isBlank, ne_of_isBareKeyChar hc (by decide : isBareKeyChar ' ' = false),
    ne_of_isBareKeyChar hc (by decide : isBareKeyChar '\t' = false)]

theorem IsBare.skipBlanks (h : IsBare name) (rest : List Char) :
    skipBlanks (name ++ rest) = name ++ rest := by
  obtain ⟨c, tail, rfl, hc⟩ := h.exists_cons
  refine skipBlanks_of_head ?_
  rintro c ⟨⟩
  exact isBlank_of_isBareKeyChar hc

theorem readName_bare (hname : IsBare name) (hrest : ∀ c ∈ rest.head?, isBareKeyChar c = false) :
    readName (name ++ rest) = some (String.ofList name, rest) := by
  have hnone : rest.takeWhile isBareKeyChar = [] ∧ rest.dropWhile isBareKeyChar = rest := by
    cases rest with
    | nil => exact ⟨rfl, rfl⟩
    | cons c rest => simp [hrest c rfl]
  have hbare := List.all_eq_true.1 hname.2
  have htake : (name ++ rest).takeWhile isBareKeyChar = name := by
    rw [List.takeWhile_append_of_pos hbare, hnone.1, List.append_nil]
  have hdrop : (name ++ rest).dropWhile isBareKeyChar = rest := by
    rw [List.dropWhile_append_of_pos hbare, hnone.2]
  obtain ⟨c, tail, rfl, hc⟩ := hname.exists_cons
  rw [List.cons_append] at htake hdrop ⊢
  rw [readName]
  · simp [htake, hdrop]
  · rintro _ heq
    exact ne_of_isBareKeyChar hc (by decide) (List.cons.inj heq).1
  · rintro _ heq
    exact ne_of_isBareKeyChar hc (by decide) (List.cons.inj heq).1

theorem readKey_bare (hname : IsBare name) (rest : List Char)
    (hrest : ∀ c ∈ rest.head?, isBareKeyChar c = false)
    (hpoint : (skipBlanks rest).head? ≠ some '.') :
    readKey (name ++ rest) = some (([], String.ofList name), skipBlanks rest) := by
  have hnames : readNames ((name ++ rest).length + 1) (name ++ rest) =
      some ([String.ofList name], skipBlanks rest) := by
    simp only [readNames, hname.skipBlanks, readName_bare hname hrest, bind, Option.bind]
    split
    · rename_i heq
      exact absurd (by rw [heq]; rfl) hpoint
    · rfl
  rw [readKey, hnames]
  rfl

end keys

section lines

/-- The statement on a line of its own, with no comment after it. -/
theorem readStatements_line {c : Char} {tail : List Char} {statement : Statement} (fuel : Nat)
    (hstart : isBlank c = false ∧ c ≠ '#' ∧ c ≠ '\n' ∧ c ≠ '\r')
    (hread : readStatement (c :: tail) = some (statement, '\n' :: rest)) :
    readStatements (fuel + 1) (c :: tail) =
      (readStatements fuel rest).map (statement :: ·) := by
  obtain ⟨hblank, hcomment, hline, hreturn⟩ := hstart
  have hskip : skipBlanks (c :: tail) = c :: tail := skipBlanks_of_head (by simpa using hblank)
  have htrailing : skipTrailing ('\n' :: rest) = some rest := rfl
  rw [readStatements, hskip]
  split
  · rename_i heq
    cases heq
  · rename_i heq
    exact absurd (List.cons.inj heq).1 hcomment
  · rename_i heq
    obtain ⟨rfl, rfl⟩ := List.cons.inj heq
    simp only [readBreak_of_ne hline hreturn, hread, htrailing, bind, Option.bind]
    cases readStatements fuel rest <;> rfl

theorem readStatement_header (hname : IsBare name) (rest : List Char) :
    readStatement ('[' :: (name ++ ']' :: rest)) = some (.table [] (.ofList name), rest) := by
  have hkey := readKey_bare hname (']' :: rest) (by simp; decide)
    (by simp [skipBlanks, isBlank])
  have hskip : skipBlanks (']' :: rest) = ']' :: rest := rfl
  rw [hskip] at hkey
  obtain ⟨c, tail, rfl, hc⟩ := hname.exists_cons
  rw [List.cons_append] at hkey ⊢
  rw [readStatement]
  · simp [hkey]
  · rintro _ heq
    exact ne_of_isBareKeyChar hc (by decide) (List.cons.inj heq).1

theorem readStatement_assignment (hname : IsBare name) (hvalue : Written written v)
    (rest : List Char) :
    readStatement (name ++ ' ' :: '=' :: ' ' :: (written ++ '\n' :: rest)) =
      some (.assign [] (.ofList name) v, '\n' :: rest) := by
  have hkey := readKey_bare hname (' ' :: '=' :: ' ' :: (written ++ '\n' :: rest))
    (by simp; decide) (by simp [skipBlanks, isBlank])
  have hskip : skipBlanks (' ' :: '=' :: ' ' :: (written ++ '\n' :: rest)) =
    '=' :: ' ' :: (written ++ '\n' :: rest) := rfl
  rw [hskip] at hkey
  obtain ⟨c, tail, rfl, hc⟩ := hname.exists_cons
  rw [List.cons_append] at hkey ⊢
  rw [readStatement]
  · simp [readAssignment, hkey, hvalue.skipBlanks, hvalue.read]
  · rintro _ heq
    exact ne_of_isBareKeyChar hc (by decide) (List.cons.inj heq).1
  · rintro _ heq
    exact ne_of_isBareKeyChar hc (by decide) (List.cons.inj heq).1

/-- A document of lines is read into what they say. -/
theorem readStatements_of_lines (h : Lines cs statements) {fuel : Nat} (hfuel : cs.length < fuel) :
    readStatements fuel cs = some statements := by
  induction h generalizing fuel with
  | nil =>
    obtain ⟨fuel, rfl⟩ := Nat.exists_eq_add_one_of_ne_zero (Nat.ne_of_gt hfuel)
    rfl
  | blank h ih =>
    obtain ⟨fuel, rfl⟩ := Nat.exists_eq_add_one_of_ne_zero (Nat.ne_of_gt (Nat.zero_lt_of_lt hfuel))
    exact ih (Nat.lt_of_succ_lt_succ hfuel)
  | @header name cs statements hname h ih =>
    obtain ⟨fuel, rfl⟩ := Nat.exists_eq_add_one_of_ne_zero (Nat.ne_of_gt (Nat.zero_lt_of_lt hfuel))
    have hshorter : cs.length < fuel := by
      simp only [List.length_cons, List.length_append] at hfuel
      omega
    rw [readStatements_line fuel (by decide) (readStatement_header hname ('\n' :: cs)), ih hshorter]
    rfl
  | @assignment name written cs v statements hname hvalue h ih =>
    obtain ⟨fuel, rfl⟩ := Nat.exists_eq_add_one_of_ne_zero (Nat.ne_of_gt (Nat.zero_lt_of_lt hfuel))
    have hshorter : cs.length < fuel := by
      simp only [List.length_cons, List.length_append] at hfuel
      omega
    have hread := readStatement_assignment hname hvalue cs
    obtain ⟨c, tail, rfl, hc⟩ := hname.exists_cons
    rw [List.cons_append] at hread ⊢
    have hstart : isBlank c = false ∧ c ≠ '#' ∧ c ≠ '\n' ∧ c ≠ '\r' :=
      ⟨isBlank_of_isBareKeyChar hc, ne_of_isBareKeyChar hc (by decide),
        ne_of_isBareKeyChar hc (by decide), ne_of_isBareKeyChar hc (by decide)⟩
    rw [readStatements_line fuel hstart hread, ih hshorter]
    rfl

end lines

end TrafficWarden.Toml
