import Mathlib.Data.Char
import Mathlib.Data.List.Basic
import TrafficWarden.Toml.Quoted
import TrafficWarden.Toml.Writer

/-!
# Strings of TOML are read back

A string is written in one of four forms, and each form has its own way to end. In a form of
several lines up to two quotes may stand together, also right before the end; so what closes such a
string is told from what is in it by the number of quotes. Whatever is in a string and whichever
form is taken, the string is read back.
-/

namespace TrafficWarden.Toml

section escapes

theorem hexValue?_hexDigit {n : Nat} (h : n < 16) : Text.hexValue? (hexDigit n) = some n := by
  have hall : ∀ n : Fin 16, Text.hexValue? (hexDigit n.val) = some n.val := by decide
  exact hall ⟨n, h⟩

theorem toNat_lt_of_isControl {c : Char} (h : isControl c = true) : c.toNat < 128 := by
  simp only [isControl, Bool.and_eq_true, Bool.or_eq_true, decide_eq_true_eq, beq_iff_eq] at h
  omega

theorem isPlain_of_not_isControl {c : Char} (h : isControl c = false) (hbreak : c ≠ '\n') :
    isPlain c = true := by
  by_cases htab : c = '\t'
  · subst htab
    decide
  · have hcontrol : ¬ (c.toNat < 0x20 ∨ c.toNat = 0x7F) := by
      simpa [isControl, htab, hbreak] using h
    simp only [isPlain, Bool.or_eq_true, Bool.and_eq_true, decide_eq_true_eq, bne_iff_ne]
    omega

/-- An escape of a control character by its number is read back. -/
theorem readEscape_numbered {c : Char} (h : isControl c = true) (rest : List Char) :
    readEscape ((numberedEscape c).tail ++ rest) = some (c, rest) := by
  have hlt := toNat_lt_of_isControl h
  have hzero : Text.hexValue? '0' = some 0 := by decide
  have hhigh := hexValue?_hexDigit (Nat.mod_lt (c.toNat / 16) (by decide : 0 < 16))
  have hlow := hexValue?_hexDigit (Nat.mod_lt c.toNat (by decide : 0 < 16))
  have hvalue : ((0 * 16 + 0) * 16 + 0) * 16 + c.toNat / 16 % 16 = c.toNat / 16 := by omega
  have hread : readHex 4 0 ('0' :: '0' :: hexDigit (c.toNat / 16 % 16) ::
      hexDigit (c.toNat % 16) :: rest) = some (c.toNat, rest) := by
    simp only [readHex, hzero, hhigh, hlow, bind, Option.bind, Option.some.injEq, Prod.mk.injEq,
      and_true]
    omega
  have hscalar : scalar? c.toNat = some c := by
    rw [scalar?, if_pos (by simp; omega), Char.ofNat_toNat]
  simp only [numberedEscape, List.tail_cons, List.cons_append, List.nil_append, readEscape, hread,
    hscalar, bind, Option.bind, pure]

/-- How a character other than a quotation mark stands in a basic string. -/
inductive Stands (lines : Bool) (c : Char) : List Char → Prop
  | escape {mark : Char} {tail : List Char}
    (hmark : isBlank mark = false ∧ mark ≠ '\n' ∧ mark ≠ '\r')
    (hread : ∀ rest, readEscape (mark :: (tail ++ rest)) = some (c, rest)) :
    Stands lines c ('\\' :: mark :: tail)
  | plain (hplain : isPlain c = true) (hquote : c ≠ '"') (hslash : c ≠ '\\') (hline : c ≠ '\n')
    (hreturn : c ≠ '\r') : Stands lines c [c]
  | lineBreak (hlines : lines = true) (hc : c = '\n') : Stands lines c ['\n']

theorem stands_escaped (lines : Bool) {c : Char} (h : c ≠ '"') :
    Stands lines c (escaped lines c) := by
  unfold escaped
  by_cases hbackspace : c = Char.ofNat 8
  · subst hbackspace
    exact .escape (by decide) fun _ => rfl
  by_cases htab : c = '\t'
  · subst htab
    exact .escape (by decide) fun _ => rfl
  by_cases hline : c = '\n'
  · subst hline
    cases lines with
    | true => exact .lineBreak rfl rfl
    | false => exact .escape (by decide) fun _ => rfl
  by_cases hfeed : c = Char.ofNat 12
  · subst hfeed
    exact .escape (by decide) fun _ => rfl
  by_cases hreturn : c = '\r'
  · subst hreturn
    exact .escape (by decide) fun _ => rfl
  by_cases hslash : c = '\\'
  · subst hslash
    exact .escape (by decide) fun _ => rfl
  simp only [beq_iff_eq, hbackspace, htab, hline, hfeed, hreturn, hslash, if_false]
  cases hcontrol : isControl c with
  | true =>
    rw [if_pos rfl]
    exact .escape (by decide) fun rest => readEscape_numbered hcontrol rest
  | false =>
    rw [if_neg (by decide)]
    exact .plain (isPlain_of_not_isControl hcontrol hline) h hslash hline hreturn

end escapes

section basic

variable {cs rest : List Char}

/-- On one line the end of a basic string is its first quotation mark, since all others are
escaped. -/
theorem readBasic_basicBody (cs rest : List Char) (run : Nat) {fuel : Nat}
    (hfuel : cs.length < fuel) :
    readBasic fuel (basicBody 0 false run cs ++ '"' :: rest) = some (cs, rest) := by
  induction cs generalizing run fuel with
  | nil =>
    obtain ⟨fuel, rfl⟩ := Nat.exists_eq_add_one_of_ne_zero (Nat.ne_of_gt hfuel)
    rfl
  | cons c cs ih =>
    obtain ⟨fuel, rfl⟩ := Nat.exists_eq_add_one_of_ne_zero (Nat.ne_of_gt (Nat.zero_lt_of_lt hfuel))
    have hrest := ih 0 (Nat.lt_of_succ_lt_succ hfuel)
    unfold basicBody
    by_cases hquote : c = '"'
    · subst hquote
      simp [readBasic, readEscape, hrest]
    · rw [if_neg hquote]
      have hstands := stands_escaped false hquote
      generalize escaped false c = written at hstands
      cases hstands with
      | escape hmark hread => simp [readBasic, hread, hrest]
      | plain hplain _ hslash _ _ =>
        simp [readBasic, hplain, hrest]
      | lineBreak hlines _ => cases hlines

end basic

section closing

variable {q : Char} {content written rest : List Char}

/-- What is written begins with at most so many quotes, and is over then or goes on with something
else. -/
inductive Leads (q : Char) (limit : Nat) : (content written : List Char) → Prop
  | all {k : Nat} (hk : k ≤ limit) : Leads q limit (.replicate k q) (.replicate k q)
  | before {k : Nat} {x : Char} {content tail : List Char} (hk : k ≤ limit) (hx : x ≠ q) :
    Leads q limit content (.replicate k q ++ x :: tail)

theorem Leads.cons {limit : Nat} (h : Leads q limit content written) :
    Leads q (limit + 1) (q :: content) (q :: written) := by
  cases h with
  | all hk => exact .all (Nat.succ_le_succ hk)
  | before hk hx => exact .before (k := _ + 1) (Nat.succ_le_succ hk) hx

theorem Leads.mono {limit limit' : Nat} (h : Leads q limit content written)
    (hle : limit ≤ limit') : Leads q limit' content written := by
  cases h with
  | all hk => exact .all (Nat.le_trans hk hle)
  | before hk hx => exact .before (Nat.le_trans hk hle) hx

/-- Up to two quotes before the end belong to the string. -/
theorem readClosing_replicate {k : Nat} (hk : k ≤ 2) (hrest : rest.head? ≠ some q) :
    readClosing q (.replicate k q ++ q :: q :: q :: rest) =
      some (.replicate k q, rest) := by
  have hnone : rest.takeWhile (· == q) = [] := by
    cases rest with
    | nil => rfl
    | cons x rest =>
      have hx : x ≠ q := fun heq => hrest (by simp [heq])
      simp [hx]
  have hk : k = 0 ∨ k = 1 ∨ k = 2 := by omega
  rcases hk with rfl | rfl | rfl <;> simp [readClosing, List.replicate, hnone]

theorem readClosing_of_ne {k : Nat} (hk : k ≤ 2) {x : Char} (hx : x ≠ q) (tail : List Char) :
    readClosing q (.replicate k q ++ x :: tail) = none := by
  have hk : k = 0 ∨ k = 1 ∨ k = 2 := by omega
  rcases hk with rfl | rfl | rfl <;> simp [readClosing, List.replicate, hx]

/-- Quotes in a string close it only if nothing but quotes is left of it. -/
theorem readClosing_of_leads (h : Leads q 2 content written)
    (hrest : rest.head? ≠ some q) :
    readClosing q (written ++ q :: q :: q :: rest) = some (content, rest) ∨
      readClosing q (written ++ q :: q :: q :: rest) = none := by
  cases h with
  | all hk => exact .inl (readClosing_replicate hk hrest)
  | before hk hx =>
    rw [List.append_assoc, List.cons_append]
    exact .inr (readClosing_of_ne hk hx _)

end closing

section lines

theorem readBreak_of_ne {c : Char} (hline : c ≠ '\n') (hreturn : c ≠ '\r') (rest : List Char) :
    readBreak (c :: rest) = none := by
  unfold readBreak
  split
  · rename_i heq
    exact absurd (List.cons.inj heq).1 hline
  · rename_i heq
    exact absurd (List.cons.inj heq).1 hreturn
  · rfl

theorem leads_basicBody (limit : Nat) (lines : Bool) (run : Nat) (cs : List Char) :
    Leads '"' (limit - run) cs (basicBody limit lines run cs) := by
  induction cs generalizing run with
  | nil => exact .all (k := 0) (Nat.zero_le _)
  | cons c cs ih =>
    unfold basicBody
    by_cases hquote : c = '"'
    · subst hquote
      rw [if_pos rfl]
      by_cases hlimit : limit ≤ run
      · rw [if_pos hlimit]
        exact .before (k := 0) (Nat.zero_le _) (by decide)
      · rw [if_neg hlimit]
        have hleads := (ih (run + 1)).cons
        rwa [show limit - (run + 1) + 1 = limit - run by omega] at hleads
    · rw [if_neg hquote]
      have hstands := stands_escaped lines hquote
      generalize escaped lines c = written at hstands
      cases hstands with
      | escape => exact .before (k := 0) (Nat.zero_le _) (by decide)
      | plain => exact .before (k := 0) (Nat.zero_le _) hquote
      | lineBreak => exact .before (k := 0) (Nat.zero_le _) (by decide)

/-- A basic string of several lines ends where three quotation marks stand together. -/
theorem readBasicLines_basicBody (cs : List Char) {rest : List Char}
    (hrest : rest.head? ≠ some '"') (run : Nat) {fuel : Nat} (hfuel : cs.length < fuel) :
    readBasicLines fuel (basicBody 2 true run cs ++ '"' :: '"' :: '"' :: rest) =
      some (cs, rest) := by
  induction cs generalizing run fuel with
  | nil =>
    obtain ⟨fuel, rfl⟩ := Nat.exists_eq_add_one_of_ne_zero (Nat.ne_of_gt hfuel)
    have hclosing := readClosing_replicate (k := 0) (Nat.zero_le 2) hrest
    simp only [List.replicate_zero, List.nil_append] at hclosing
    simp [basicBody, readBasicLines, hclosing]
  | cons c cs ih =>
    obtain ⟨fuel, rfl⟩ := Nat.exists_eq_add_one_of_ne_zero (Nat.ne_of_gt (Nat.zero_lt_of_lt hfuel))
    have hshorter := Nat.lt_of_succ_lt_succ hfuel
    have hleads := leads_basicBody 2 true run (c :: cs)
    unfold basicBody at hleads ⊢
    by_cases hquote : c = '"'
    · subst hquote
      rw [if_pos rfl] at hleads ⊢
      by_cases hlimit : 2 ≤ run
      · simp [hlimit, readBasicLines, readBreak, skipBlanks, isBlank, readEscape, ih 0 hshorter]
      · rw [if_neg hlimit] at hleads ⊢
        have hclosing := readClosing_of_leads (hleads.mono (Nat.sub_le 2 run)) hrest
        rw [List.cons_append] at hclosing ⊢
        rcases hclosing with hclosed | hopen
        · simp [readBasicLines, hclosed]
        · simp [readBasicLines, hopen, ih (run + 1) hshorter]
    · rw [if_neg hquote]
      have hstands := stands_escaped true hquote
      generalize escaped true c = written at hstands
      cases hstands with
      | escape hmark hread =>
        obtain ⟨hblank, hline, hreturn⟩ := hmark
        simp [readBasicLines, skipBlanks, hblank, readBreak_of_ne hline hreturn, hread,
          ih 0 hshorter]
      | plain hplain _ hslash hline hreturn =>
        simp [readBasicLines, readBreak_of_ne hline hreturn, hplain, ih 0 hshorter]
      | lineBreak _ hc =>
        subst hc
        simp [readBasicLines, readBreak, ih 0 hshorter]

/-- Text of a literal string: no control characters, and at most two apostrophes together, after
`run` of them. -/
inductive Literal : (run : Nat) → List Char → Prop
  | nil {run : Nat} (hrun : run ≤ 2) : Literal run []
  | apostrophe {run : Nat} {cs : List Char} (h : Literal (run + 1) cs) : Literal run ('\'' :: cs)
  | other {run : Nat} {c : Char} {cs : List Char} (hrun : run ≤ 2) (hc : c ≠ '\'')
    (hcontrol : isControl c = false) (h : Literal 0 cs) : Literal run (c :: cs)

theorem Literal.run_le {run : Nat} {cs : List Char} (h : Literal run cs) : run ≤ 2 := by
  induction h with
  | nil hrun => exact hrun
  | apostrophe _ ih => exact Nat.le_of_succ_le ih
  | other hrun => exact hrun

theorem Literal.leads {run : Nat} {cs : List Char} (h : Literal run cs) :
    Leads '\'' (2 - run) cs cs := by
  induction h with
  | nil => exact .all (k := 0) (Nat.zero_le _)
  | @apostrophe run cs h ih =>
    have hrun := h.run_le
    have hleads := ih.cons
    rwa [show 2 - (run + 1) + 1 = 2 - run by omega] at hleads
  | other _ hc => exact .before (k := 0) (Nat.zero_le _) hc

theorem le_longestRun (c : Char) (run longest : Nat) (cs : List Char) :
    longest ≤ longestRun c run longest cs := by
  induction cs generalizing run longest with
  | nil => exact Nat.le_max_right run longest
  | cons x cs ih =>
    unfold longestRun
    split
    · exact ih (run + 1) longest
    · exact Nat.le_trans (Nat.le_max_right run longest) (ih 0 (max run longest))

theorem run_le_longestRun (c : Char) (run longest : Nat) (cs : List Char) :
    run ≤ longestRun c run longest cs := by
  induction cs generalizing run longest with
  | nil => exact Nat.le_max_left run longest
  | cons x cs ih =>
    unfold longestRun
    split
    · exact Nat.le_of_succ_le (ih (run + 1) longest)
    · exact Nat.le_trans (Nat.le_max_left run longest)
        (le_longestRun c 0 (max run longest) cs)

theorem literal_of_longestRun {run longest : Nat} {cs : List Char}
    (hcontrol : ∀ c ∈ cs, isControl c = false) (h : longestRun '\'' run longest cs ≤ 2) :
    Literal run cs := by
  induction cs generalizing run longest with
  | nil => exact .nil (Nat.le_trans (Nat.le_max_left run longest) h)
  | cons c cs ih =>
    rw [List.forall_mem_cons] at hcontrol
    unfold longestRun at h
    by_cases hc : c = '\''
    · subst hc
      rw [if_pos rfl] at h
      exact .apostrophe (ih hcontrol.2 h)
    · rw [if_neg hc] at h
      have hmax := Nat.le_trans (le_longestRun '\'' 0 (max run longest) cs) h
      exact .other (Nat.le_trans (Nat.le_max_left run longest) hmax) hc hcontrol.1
        (ih hcontrol.2 h)

/-- A literal string of several lines ends where three apostrophes stand together. -/
theorem readLiteralLines_of_literal {cs rest : List Char} (hrest : rest.head? ≠ some '\'')
    {run : Nat} (h : Literal run cs) {fuel : Nat} (hfuel : cs.length < fuel) :
    readLiteralLines fuel (cs ++ '\'' :: '\'' :: '\'' :: rest) = some (cs, rest) := by
  induction h generalizing fuel with
  | nil =>
    obtain ⟨fuel, rfl⟩ := Nat.exists_eq_add_one_of_ne_zero (Nat.ne_of_gt hfuel)
    have hclosing := readClosing_replicate (k := 0) (Nat.zero_le 2) hrest
    simp only [List.replicate_zero, List.nil_append] at hclosing
    simp [readLiteralLines, hclosing]
  | @apostrophe run cs h ih =>
    obtain ⟨fuel, rfl⟩ := Nat.exists_eq_add_one_of_ne_zero (Nat.ne_of_gt (Nat.zero_lt_of_lt hfuel))
    have hclosing := readClosing_of_leads ((h.apostrophe).leads.mono (Nat.sub_le 2 run)) hrest
    rw [List.cons_append] at hclosing ⊢
    rcases hclosing with hclosed | hopen
    · simp [readLiteralLines, hclosed]
    · simp [readLiteralLines, hopen, ih (Nat.lt_of_succ_lt_succ hfuel)]
  | @other run c cs _ hc hcontrol h ih =>
    obtain ⟨fuel, rfl⟩ := Nat.exists_eq_add_one_of_ne_zero (Nat.ne_of_gt (Nat.zero_lt_of_lt hfuel))
    have hshorter := ih (Nat.lt_of_succ_lt_succ hfuel)
    by_cases hline : c = '\n'
    · subst hline
      simp [readLiteralLines, readBreak, hshorter]
    · have hreturn : c ≠ '\r' := by
        rintro rfl
        exact absurd hcontrol (by decide)
      simp [readLiteralLines, readBreak_of_ne hline hreturn,
        isPlain_of_not_isControl hcontrol hline, hshorter]

end lines

section forms

variable {cs rest : List Char}

theorem not_mem_of_longestRun {c : Char} {run longest : Nat}
    (h : longestRun c run longest cs = 0) : c ∉ cs := by
  induction cs generalizing run longest with
  | nil => exact List.not_mem_nil
  | cons x cs ih =>
    unfold longestRun at h
    split at h
    · have hrun := run_le_longestRun c (run + 1) longest cs
      omega
    · rename_i hx
      exact List.not_mem_cons_of_ne_of_not_mem (Ne.symm hx) (ih h)

theorem of_form_literal (h : StringForm.of cs = .literal) :
    cs ≠ [] ∧ '\'' ∉ cs ∧ ∀ c ∈ cs, isControl c = false ∧ c ≠ '\n' := by
  have hsome : cs ≠ [] := by
    rintro rfl
    exact absurd h (by decide)
  unfold StringForm.of at h
  simp only [] at h
  split at h
  · cases h
  split at h
  · rename_i hliteral
    simp only [Bool.and_eq_true, Bool.not_eq_true', List.any_eq_false, beq_iff_eq,
      List.contains_eq_mem, decide_eq_false_iff_not, Bool.not_eq_true] at hliteral
    obtain ⟨⟨hcontrol, hquotes⟩, hbreaks⟩ := hliteral
    refine ⟨hsome, not_mem_of_longestRun hquotes, fun c hc => ⟨hcontrol c hc, ?_⟩⟩
    rintro rfl
    exact hbreaks hc
  split at h
  · cases h
  split at h
  · cases h
  split at h <;> cases h

theorem of_form_literalLines (h : StringForm.of cs = .literalLines) : Literal 0 cs := by
  unfold StringForm.of at h
  simp only [] at h
  split at h
  · cases h
  split at h
  · cases h
  split at h
  · cases h
  split at h
  · rename_i hliteral
    simp only [Bool.and_eq_true, Bool.not_eq_true', List.any_eq_false, decide_eq_true_eq,
      Bool.not_eq_true] at hliteral
    exact literal_of_longestRun hliteral.1 hliteral.2
  split at h <;> cases h

/-- On one line the end of a literal string is its first apostrophe. -/
theorem readLiteral_of_plain (hquote : '\'' ∉ cs)
    (hplain : ∀ c ∈ cs, isControl c = false ∧ c ≠ '\n') :
    readLiteral (cs ++ '\'' :: rest) = some (cs, rest) := by
  induction cs with
  | nil => rfl
  | cons c cs ih =>
    rw [List.mem_cons, not_or] at hquote
    rw [List.forall_mem_cons] at hplain
    have hhead := isPlain_of_not_isControl hplain.1.1 hplain.1.2
    simp [readLiteral, Ne.symm hquote.1, hhead, ih hquote.2 hplain.2]

theorem length_le_basicBody (limit : Nat) (lines : Bool) (run : Nat) (cs : List Char) :
    cs.length ≤ (basicBody limit lines run cs).length := by
  induction cs generalizing run with
  | nil => exact Nat.zero_le _
  | cons c cs ih =>
    unfold basicBody
    by_cases hquote : c = '"'
    · have hraw := ih (run + 1)
      have hescaped := ih 0
      rw [if_pos hquote]
      split <;> simp only [List.length_cons] <;> omega
    · have hrest := ih 0
      have hstands := stands_escaped lines hquote
      rw [if_neg hquote, List.length_append, List.length_cons]
      generalize escaped lines c = written at hstands
      cases hstands <;> simp only [List.length_cons] <;> omega

/-- A line break at the head of what stands in a string of several lines is one of the string, for
another one is written before it. -/
theorem dropBreak_opening {body : List Char} (h : '\n' ∉ cs → readBreak body = none) :
    dropBreak (opening cs ++ body) = body := by
  unfold opening
  by_cases hline : '\n' ∈ cs
  · simp [hline, dropBreak, readBreak]
  · simp [hline, dropBreak, h hline]

theorem readBreak_basicBody (hline : '\n' ∉ cs) :
    readBreak (basicBody 2 true 0 cs ++ '"' :: rest) = none := by
  cases cs with
  | nil => rfl
  | cons c cs =>
    rw [List.mem_cons, not_or] at hline
    unfold basicBody
    by_cases hquote : c = '"'
    · rw [if_pos hquote]
      rfl
    · rw [if_neg hquote]
      have hstands := stands_escaped true hquote
      generalize escaped true c = written at hstands
      cases hstands with
      | escape => rfl
      | plain _ _ _ hbreak hreturn => exact readBreak_of_ne hbreak hreturn _
      | lineBreak _ hc => exact absurd hc.symm hline.1

theorem readBreak_literal (h : Literal 0 cs) (hline : '\n' ∉ cs) :
    readBreak (cs ++ '\'' :: rest) = none := by
  cases h with
  | nil => rfl
  | apostrophe => rfl
  | other _ _ hcontrol =>
    rw [List.mem_cons, not_or] at hline
    refine readBreak_of_ne (Ne.symm hline.1) ?_ _
    rintro rfl
    exact absurd hcontrol (by decide)

/-- Where no three quotation marks stand together, a string has one line. -/
theorem readString_basic {body : List Char} (h : ∀ tail, body ≠ '"' :: '"' :: tail) :
    readString ('"' :: body) = readBasic (body.length + 1) body := by
  unfold readString
  split
  · rename_i heq
    exact absurd (List.cons.inj heq).2 (h _)
  · rename_i heq
    rw [(List.cons.inj heq).2]
  · rename_i heq
    exact absurd (List.cons.inj heq).1 (by decide)
  · rename_i heq
    exact absurd (List.cons.inj heq).1 (by decide)
  · rename_i hnone _ _
    exact absurd rfl (hnone body)

theorem readString_literal {body : List Char} (h : ∀ tail, body ≠ '\'' :: '\'' :: tail) :
    readString ('\'' :: body) = readLiteral body := by
  unfold readString
  split
  · rename_i heq
    exact absurd (List.cons.inj heq).1 (by decide)
  · rename_i heq
    exact absurd (List.cons.inj heq).1 (by decide)
  · rename_i heq
    exact absurd (List.cons.inj heq).2 (h _)
  · rename_i heq
    rw [(List.cons.inj heq).2]
  · rename_i hnone
    exact absurd rfl (hnone body)

theorem readString_basicLine (cs : List Char) (hrest : rest.head? ≠ some '"') :
    readString ('"' :: (basicBody 0 false 0 cs ++ '"' :: rest)) = some (cs, rest) := by
  have hlength := length_le_basicBody 0 false 0 cs
  have hleads := leads_basicBody 0 false 0 cs
  have hread : ∀ fuel, cs.length < fuel →
      readBasic fuel (basicBody 0 false 0 cs ++ '"' :: rest) = some (cs, rest) :=
    fun _ hfuel => readBasic_basicBody cs rest 0 hfuel
  generalize basicBody 0 false 0 cs = body at hlength hleads hread
  have hopen : ∀ tail, body ++ '"' :: rest ≠ '"' :: '"' :: tail := by
    rintro tail heq
    cases hleads with
    | @all k hk =>
      obtain rfl := Nat.le_zero.1 hk
      have htail : rest = '"' :: tail := (List.cons.inj heq).2
      exact hrest (by rw [htail]; rfl)
    | @before k _ _ _ hk hx =>
      obtain rfl := Nat.le_zero.1 hk
      exact hx (List.cons.inj heq).1
  rw [readString_basic hopen]
  exact hread _ (by simp; omega)

theorem readString_literalLine (hsome : cs ≠ []) (hquote : '\'' ∉ cs)
    (hplain : ∀ c ∈ cs, isControl c = false ∧ c ≠ '\n') :
    readString ('\'' :: (cs ++ '\'' :: rest)) = some (cs, rest) := by
  have hopen : ∀ tail, cs ++ '\'' :: rest ≠ '\'' :: '\'' :: tail := by
    obtain ⟨c, cs, rfl⟩ := List.exists_cons_of_ne_nil hsome
    rintro tail heq
    exact hquote ((List.cons.inj heq).1 ▸ List.mem_cons_self)
  rw [readString_literal hopen, readLiteral_of_plain hquote hplain]

theorem readString_basicLines (cs : List Char) (hrest : rest.head? ≠ some '"') :
    readString ('"' :: '"' :: '"' :: (opening cs ++
      (basicBody 2 true 0 cs ++ '"' :: '"' :: '"' :: rest))) = some (cs, rest) := by
  have hlength := length_le_basicBody 2 true 0 cs
  rw [readString, dropBreak_opening readBreak_basicBody]
  exact readBasicLines_basicBody cs hrest 0 (by simp; omega)

theorem readString_literalLines (h : Literal 0 cs) (hrest : rest.head? ≠ some '\'') :
    readString ('\'' :: '\'' :: '\'' :: (opening cs ++ (cs ++ '\'' :: '\'' :: '\'' :: rest))) =
      some (cs, rest) := by
  rw [readString, dropBreak_opening (readBreak_literal h)]
  exact readLiteralLines_of_literal hrest h (by simp; omega)

/-- Whatever is in a string, it is read back from its text. -/
theorem readString_writeChars (cs rest : List Char) (hbasic : rest.head? ≠ some '"')
    (hliteral : rest.head? ≠ some '\'') :
    readString (writeChars cs ++ rest) = some (cs, rest) := by
  unfold writeChars
  split
  all_goals
    rename_i hform
    simp only [List.cons_append, List.append_assoc, List.nil_append]
  · exact readString_basicLine cs hbasic
  · obtain ⟨hsome, hquote, hplain⟩ := of_form_literal hform
    exact readString_literalLine hsome hquote hplain
  · exact readString_basicLines cs hbasic
  · exact readString_literalLines (of_form_literalLines hform) hliteral

end forms

end TrafficWarden.Toml
