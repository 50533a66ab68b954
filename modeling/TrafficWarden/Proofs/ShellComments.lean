import TrafficWarden.Proofs.ScriptArguments

/-!
# Comments of a script

The comments of a script are read from its text character by character: a number sign begins one
where a word could begin, and no quote or backslash is in force. So what a script has between quotes
is never taken for a comment, and its own comments are all read back.
-/

namespace TrafficWarden

namespace Shell

/-- Where a reader of a script stands: at the head of a word or within one, behind a backslash,
between quotes, or in a comment. -/
inductive Place where
  | head
  | word
  | escaped
  | single
  | double
  | doubleEscaped
  | comment
deriving DecidableEq, Repr

/-- Where a reader stands after a character that no quote or backslash keeps. -/
def Place.after (c : Char) : Place :=
  if endsWord c then .head
  else if c = '\'' then .single
  else if c = '"' then .double
  else if c = '\\' then .escaped
  else .word

def Place.next : Place → Char → Place
  | .head, c => .after c
  | .word, c => .after c
  | .escaped, _ => .word
  | .single, c => if c = '\'' then .word else .single
  | .double, c => if c = '"' then .word else if c = '\\' then .doubleEscaped else .double
  | .doubleEscaped, _ => .double
  | .comment, c => if c = '\n' then .head else .comment

/-- The comments of a text from a place on, each up to the end of its line. -/
def commentsFrom : Place → List Char → List String
  | _, [] => []
  | place, c :: rest =>
    if place = .head ∧ c = '#' then
      String.ofList (rest.takeWhile (· ≠ '\n')) :: commentsFrom .comment rest
    else commentsFrom (place.next c) rest

/-- The comments of a script. -/
def comments (source : String) : List String := commentsFrom .head source.toList

/-- A reader comes from one place to another by a text that has no comment. -/
def Leads (place : Place) (cs : List Char) (place' : Place) : Prop :=
  ∀ rest, commentsFrom place (cs ++ rest) = commentsFrom place' rest

namespace Leads

variable {place place' place'' : Place} {cs more : List Char}

theorem nil (place : Place) : Leads place [] place := fun _ => rfl

theorem trans (h : Leads place cs place') (h' : Leads place' more place'') :
    Leads place (cs ++ more) place'' := by
  intro rest
  rw [List.append_assoc, h, h']

theorem cons {c : Char} (h : place ≠ .head ∨ c ≠ '#') (hnext : place.next c = place')
    (hrest : Leads place' cs place'') : Leads place (c :: cs) place'' := by
  intro rest
  have hno : ¬ (place = .head ∧ c = '#') := fun hboth => h.elim (· hboth.1) (· hboth.2)
  rw [List.cons_append, commentsFrom, if_neg hno, hnext, hrest]

/-- Between single quotes, all characters but the quote itself are passed over. -/
theorem single (h : '\'' ∉ cs) : Leads .single cs .single := by
  induction cs with
  | nil => exact nil _
  | cons c cs ih =>
    rw [List.mem_cons, not_or] at h
    exact cons (.inl Place.noConfusion) (if_neg (Ne.symm h.1)) (ih h.2)

/-- A comment goes on to the end of its line. -/
theorem comment (h : '\n' ∉ cs) : Leads .comment cs .comment := by
  induction cs with
  | nil => exact nil _
  | cons c cs ih =>
    rw [List.mem_cons, not_or] at h
    exact cons (.inl Place.noConfusion) (if_neg (Ne.symm h.1)) (ih h.2)

/-- A quoted part ends within its word. -/
theorem quoted {inner raw : List Char} (hinner : '\'' ∉ inner) (h : Leads .word raw .word) :
    Leads .single (inner ++ '\'' :: raw) .word :=
  have hclosed : Leads .single ('\'' :: raw) .word := cons (.inl Place.noConfusion) rfl h
  (single hinner).trans hclosed

theorem after_of_not_special {c : Char} (h : c ∉ specialChars) : Place.after c = .word := by
  simp only [specialChars, List.mem_cons, List.not_mem_nil, or_false, not_or] at h
  simp [Place.after, endsWord, isBlank, h]

/-- The spelling of a word leads through the word. -/
theorem spells {raw word : List Char} (h : Spells raw word) : Leads .word raw .word := by
  induction h with
  | nil => exact nil _
  | plain hc _ ih => exact cons (.inl Place.noConfusion) (after_of_not_special hc) ih
  | escaped _ _ ih =>
    exact cons (.inl Place.noConfusion) rfl (cons (.inl Place.noConfusion) rfl ih)
  | quoted hinner _ ih => exact cons (.inl Place.noConfusion) rfl (quoted hinner ih)

/-- A word begins no comment. -/
theorem spells_of_ne_nil {raw word : List Char} (h : Spells raw word) (hne : raw ≠ []) :
    Leads .head raw .word := by
  cases h with
  | nil => exact absurd rfl hne
  | @plain c raw word hc h =>
    have hmark : c ≠ '#' := fun heq => hc (heq ▸ by decide)
    exact cons (.inr hmark) (after_of_not_special hc) (spells h)
  | escaped _ h => exact cons (.inr (by decide)) rfl (cons (.inl Place.noConfusion) rfl (spells h))
  | quoted hinner h => exact cons (.inr (by decide)) rfl (quoted hinner (spells h))

theorem quoteChars (cs : List Char) : Leads .head (Shell.quoteChars cs) .word :=
  spells_of_ne_nil (spells_quoteChars cs) (quoteChars_ne_nil cs)

theorem name (h : IsName cs) : Leads .head cs .word := by
  have hsafe : ∀ c ∈ cs, isSafe c = true := fun c hc => by
    have hname := List.all_eq_true.mp h.2 c hc
    rw [isNameChar, Bool.or_eq_true, beq_iff_eq] at hname
    rcases hname with hname | rfl
    · rw [isSafe, hname, Bool.true_or]
    · decide
  obtain ⟨c, rest, rfl, -⟩ := h.exists_cons
  exact spells_of_ne_nil (spells_of_all_isSafe hsafe) (List.cons_ne_nil _ _)

/-- A comment is read, and the next line begins after it. -/
theorem comments_comment (h : '\n' ∉ cs) (rest : List Char) :
    commentsFrom .head ('#' :: (cs ++ '\n' :: rest)) =
      String.ofList cs :: commentsFrom .head rest := by
  rw [commentsFrom, if_pos ⟨rfl, rfl⟩, Script.takeWhile_ne_append_cons h, comment h]
  rfl

end Leads

end Shell

open Shell

theorem ScriptWord.leads (word : ScriptWord) : Leads .head word.text.toList .word := by
  cases word with
  | literal s =>
    have htext : (literal s).text.toList = Shell.quoteChars s.toList := String.toList_ofList
    rw [htext]
    exact .quoteChars s.toList
  | outside => exact fun _ => rfl
  | inside => exact fun _ => rfl

namespace Command

theorem leads_words {words : List ScriptWord} (h : words ≠ []) :
    Leads .head (" ".intercalate (words.map ScriptWord.text)).toList .word := by
  induction words with
  | nil => exact absurd rfl h
  | cons word words ih =>
    by_cases hlast : words = []
    · subst hlast
      simpa using word.leads
    · rw [toList_words_cons word hlast]
      exact word.leads.trans (.cons (.inl Place.noConfusion) rfl (ih hlast))

theorem leads {c : Command} (h : c.words ≠ []) : Leads .head c.text.toList .word := by
  obtain ⟨words, tolerated⟩ := c
  have hsuffix : Leads .word (if tolerated then " 2>/dev/null || true" else "").toList .word := by
    cases tolerated
    · exact .nil _
    · exact fun _ => rfl
  rw [text, String.toList_append]
  exact (leads_words h).trans hsuffix

end Command

namespace ScriptLine

/-- The comment that a line is to a shell. -/
def remark? : ScriptLine → Option String
  | .interpreter path => some ("!" ++ path)
  | .comment text => some (" " ++ text)
  | _ => none

theorem leads {line : ScriptLine} (h : line.Readable) (hline : line.remark? = none) :
    Leads .head (line.text.toList ++ ['\n']) .head := by
  have hbreak : Leads .word ['\n'] .head := fun _ => rfl
  cases line with
  | interpreter path => exact absurd hline (by simp [remark?])
  | comment s => exact absurd hline (by simp [remark?])
  | stopOnFault => exact fun _ => rfl
  | blank => exact fun _ => rfl
  | assign name value =>
    have hvalue : Leads .word (quoteChars value.toList) .word := .spells (spells_quoteChars _)
    have hassign : Leads .word ('=' :: quoteChars value.toList) .word :=
      .cons (.inl Place.noConfusion) rfl hvalue
    have hall := (Leads.name h).trans (hassign.trans hbreak)
    simpa [text, quote] using hall
  | run c =>
    obtain ⟨name, words, hc, -⟩ := h
    exact (Command.leads (by simp [hc])).trans hbreak

theorem commentsFrom_text {line : ScriptLine} (h : line.Readable) (rest : List Char) :
    commentsFrom .head (line.text.toList ++ '\n' :: rest) =
      line.remark?.toList ++ commentsFrom .head rest := by
  cases hline : line.remark? with
  | none =>
    have hleads := leads h hline rest
    rwa [List.append_assoc] at hleads
  | some remark =>
    cases line with
    | interpreter path =>
      obtain rfl := Option.some.inj hline
      have hpath : '\n' ∉ '!' :: path.toList := by simpa [Readable] using h
      simpa [text] using Leads.comments_comment hpath rest
    | comment s =>
      obtain rfl := Option.some.inj hline
      have hs : '\n' ∉ ' ' :: s.toList := by simpa [Readable] using h
      simpa [text] using Leads.comments_comment hs rest
    | _ => exact absurd hline (by simp [remark?])

end ScriptLine

namespace Script

/-- The comments that are read from the text of a script are those of its lines. -/
theorem comments_text {s : Script} (h : ∀ line ∈ s, line.Readable) :
    comments s.text = s.filterMap ScriptLine.remark? := by
  induction s with
  | nil => rfl
  | cons line s ih =>
    rw [List.forall_mem_cons] at h
    have htext : (text (line :: s)).toList = line.text.toList ++ '\n' :: (text s).toList := by
      simp [text_cons]
    rw [comments, htext, line.commentsFrom_text h.1, ← comments, ih h.2, List.filterMap_cons]
    cases line.remark? <;> rfl

/-- The identity and the number in the comment that heads a section. -/
def readSection? (comment : String) : Option (EntityId × Nat) :=
  match comment.toList with
  | ' ' :: title => readTitle title
  | _ => none

/-- The sections of a script with their numbers, read from its text. -/
def sections (source : String) : List (EntityId × Nat) := (comments source).filterMap readSection?

theorem readSection?_remark (line : ScriptLine) :
    line.remark?.bind readSection? = heading? line := by
  cases line with
  | interpreter path =>
    have hchars : ("!" ++ path).toList = '!' :: path.toList := by simp
    rw [ScriptLine.remark?, Option.bind_some, readSection?, hchars]
    rfl
  | comment s =>
    have hchars : (" " ++ s).toList = ' ' :: s.toList := by simp
    rw [ScriptLine.remark?, Option.bind_some, readSection?, hchars]
    rfl
  | _ => rfl

theorem sections_text {s : Script} (h : ∀ line ∈ s, line.Readable) :
    sections s.text = headings s := by
  rw [sections, comments_text h, List.filterMap_filterMap, headings]
  exact List.filterMap_congr fun line _ => readSection?_remark line

/-- The sections in the text of a plan's script are numbered from 1, in the order of the plan. No
text in the plan is taken for another one. -/
theorem sections_script (p : Plan) :
    sections p.script = (p.policies.map (·.policy.id)).zipIdx 1 := by
  rw [Plan.script, sections_text (readable_ofPlan p), headings_ofPlan]

end Script

end TrafficWarden
