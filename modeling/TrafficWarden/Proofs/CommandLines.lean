import TrafficWarden.Proofs.LineReadings
import TrafficWarden.Proofs.Results

/-!
# Command lines with other formats

A command line with another format wherever a format is given is read in the same way.
-/

namespace TrafficWarden

open Hushable

/-- The letters of the options that take no value. -/
def FlagLetter (c : Char) : Prop := ∃ s : Switch, s.letter? = some c ∧ s.takesValue = false

/-- The characters of a word after which the format stands in a word of its own. -/
inductive FormatOption : List Char → Prop
  | long : FormatOption "--output".toList
  | letters {cs : List Char} (h : ∀ c ∈ cs, FlagLetter c) : FormatOption ('-' :: (cs ++ ['o']))

/-- The characters after which the format stands in the same word. -/
inductive FormatHead : List Char → Prop
  | long : FormatHead "--output=".toList
  | letters {cs : List Char} (h : ∀ c ∈ cs, FlagLetter c) : FormatHead ('-' :: (cs ++ ['o']))
  | equals {cs : List Char} (h : ∀ c ∈ cs, FlagLetter c) : FormatHead ('-' :: (cs ++ ['o', '=']))

/-- Two command lines that differ in the formats they give. After two dashes no option is read. -/
inductive Reformatted : List String → List String → Prop
  | refl (words : List String) : Reformatted words words
  | same {word : String} {words words' : List String} (hword : word ≠ "--")
      (h : Reformatted words words') : Reformatted (word :: words) (word :: words')
  | next {cs : List Char} {words words' : List String} (hcs : FormatOption cs)
      (f f' : OutputFormat) (h : Reformatted words words') :
      Reformatted (String.ofList cs :: f.name :: words) (String.ofList cs :: f'.name :: words')
  | joined {cs : List Char} {words words' : List String} (hcs : FormatHead cs)
      (f f' : OutputFormat) (h : Reformatted words words') :
      Reformatted (String.ofList (cs ++ f.name.toList) :: words)
        (String.ofList (cs ++ f'.name.toList) :: words')

section words

variable {word : String} {cs rest : List Char} {c : Char}

theorem FlagLetter.ne_dash (h : FlagLetter c) : c ≠ '-' := by
  obtain ⟨s, hs, -⟩ := h
  rintro rfl
  cases s <;> simp [Switch.letter?] at hs

/-- A switch with such a letter takes no value, at whichever level. -/
theorem FlagLetter.takesValue (h : FlagLetter c) {s : Switch} (hs : s.letter? = some c) :
    s.takesValue = false := by
  have hletter : c ≠ 'o' ∧ c ≠ 'i' := by
    obtain ⟨t, ht, hvalue⟩ := h
    constructor <;> rintro rfl <;> cases t <;> simp [Switch.letter?, Switch.takesValue] at ht hvalue
  cases s with
  | output => exact absurd (Option.some.inj hs).symm hletter.1
  | interval => exact absurd (Option.some.inj hs).symm hletter.2
  | _ => first | rfl | cases hs

theorem Word.of_letters (hcs : ∀ c ∈ cs, FlagLetter c) :
    Word.of (String.ofList ('-' :: (cs ++ 'o' :: rest))) = .letters (cs ++ 'o' :: rest) := by
  cases cs with
  | nil => simp [Word.of]
  | cons c cs =>
    have hc := (hcs c List.mem_cons_self).ne_dash
    simp [Word.of, hc]

theorem Word.of_eq_escape_iff : Word.of word = .escape ↔ word = "--" := by
  constructor
  · intro h
    unfold Word.of at h
    split at h
    · rename_i heq
      exact String.toList_injective heq
    · unfold Word.ofLong at h
      dsimp only at h
      split at h <;> cases h
    · cases h
    · cases h
    · cases h
  · rintro rfl
    rfl

theorem command?_eq_none {l : Level} (h : ∀ e ∈ l.commands, e.1 ≠ word) :
    l.command? word = none := by
  rw [Level.command?, List.lookup_eq_none_iff]
  intro e he
  simpa using (h e he).symm

/-- No word that starts with a dash is a command. -/
theorem not_command_of_dash (h : word.toList.head? = some '-') (l : Level) :
    word ≠ "help" ∧ l.command? word = none := by
  have hcommands : ∀ e ∈ l.commands, e.1.toList.head? ≠ some '-' := by
    cases l <;> decide
  constructor
  · rintro rfl
    exact absurd h (by decide)
  · apply command?_eq_none
    rintro e he rfl
    exact hcommands e he h

theorem FormatOption.head? (h : FormatOption cs) : cs.head? = some '-' := by
  cases h <;> rfl

theorem FormatHead.head?_append (h : FormatHead cs) (f : OutputFormat) :
    (cs ++ f.name.toList).head? = some '-' := by
  cases h <;> rfl

theorem FormatOption.letter_mem (h : FormatOption cs) : 'o' ∈ cs := by
  cases h with
  | long => decide
  | letters _ => simp

theorem FormatHead.letter_mem (h : FormatHead cs) : 'o' ∈ cs := by
  cases h with
  | long => decide
  | letters _ | equals _ => simp

theorem ne_dashes (h : 'o' ∈ cs) : String.ofList cs ≠ "--" := by
  intro heq
  have hcs : cs = ['-', '-'] := by simpa using congrArg String.toList heq
  rw [hcs] at h
  exact absurd h (by decide)

theorem leadsToHelp_of_dash (h : word.toList.head? = some '-') (l : Option Level)
    (words : List String) : leadsToHelp l (word :: words) = false := by
  cases l with
  | none => rfl
  | some l =>
    obtain ⟨hhelp, hcommand⟩ := not_command_of_dash h l
    simp [leadsToHelp, hhelp, hcommand]

/-- Whether help is asked for has nothing to do with formats. -/
theorem Reformatted.leadsToHelp {words words' : List String} (h : Reformatted words words')
    (l : Option Level) : leadsToHelp l words' = leadsToHelp l words := by
  induction h generalizing l with
  | refl words => rfl
  | @same word words words' _ _ ih =>
    cases l with
    | none => rfl
    | some l =>
      unfold TrafficWarden.leadsToHelp
      split
      · exact ih none
      · cases l.command? word with
        | none => rfl
        | some child => exact ih (some child)
  | next hcs f f' =>
    rw [leadsToHelp_of_dash (by simpa using hcs.head?),
      leadsToHelp_of_dash (by simpa using hcs.head?)]
  | joined hcs f f' =>
    rw [leadsToHelp_of_dash (by simpa using hcs.head?_append f'),
      leadsToHelp_of_dash (by simpa using hcs.head?_append f)]

end words

namespace Reading

variable {r r' r₁ : Reading} {s : Switch}

/-- What judging a reading leaves as it was. -/
structure Settles (r r₁ : Reading) : Prop where
  level : r₁.level = r.level
  pending : r₁.pending = .nothing
  filled : r₁.filled = r.filled
  escaped : r₁.escaped = r.escaped

theorem settles (h : r.settle = .ok r₁) : r.Settles r₁ := by
  unfold settle at h
  split at h
  · rename_i hpending
    cases h
    exact ⟨rfl, hpending, rfl, rfl⟩
  · cases h
  · obtain ⟨given, -, hgiven⟩ := bind_eq_ok_iff.mp h
    cases hgiven
    exact ⟨rfl, rfl, rfl, rfl⟩
  · obtain ⟨given, -, hgiven⟩ := bind_eq_ok_iff.mp h
    cases hgiven
    exact ⟨rfl, rfl, rfl, rfl⟩

theorem takeFlag_escaped (h : r.takeFlag s = .ok r₁) : r₁.escaped = r.escaped := by
  obtain ⟨r₀, hr₀, hflag⟩ := bind_eq_ok_iff.mp h
  obtain ⟨given, -, hgiven⟩ := bind_eq_ok_iff.mp hflag
  cases hgiven
  exact (settles hr₀).escaped

theorem takeValue_escaped {value : String} (h : r.takeValue s value = .ok r₁) :
    r₁.escaped = r.escaped := by
  obtain ⟨r₀, hr₀, hvalue⟩ := bind_eq_ok_iff.mp h
  obtain ⟨given, -, hgiven⟩ := bind_eq_ok_iff.mp hvalue
  cases hgiven
  exact (settles hr₀).escaped

theorem awaitValue_eq_ok (h : r.awaitValue s = .ok r₁) :
    r₁.pending = .option s none ∧ r₁.escaped = r.escaped := by
  obtain ⟨r₀, hr₀, hvalue⟩ := bind_eq_ok_iff.mp h
  cases hvalue
  exact ⟨rfl, (settles hr₀).escaped⟩

theorem takePlain_escaped {word : String} (h : r.takePlain word = .ok r₁) :
    r₁.escaped = r.escaped := by
  unfold takePlain at h
  split at h
  · cases h
  · split at h
    · cases h
    · obtain ⟨r₀, hr₀, hnext⟩ := bind_eq_ok_iff.mp h
      cases hnext
      exact (settles hr₀).escaped
  · cases h
    rfl
  · obtain ⟨r₀, hr₀, hnext⟩ := bind_eq_ok_iff.mp h
    cases hnext
    exact (settles hr₀).escaped

theorem takeLetters_escaped {cs : List Char} (h : r.takeLetters cs = .ok r₁) :
    r₁.escaped = r.escaped := by
  induction cs generalizing r with
  | nil =>
    cases h
    rfl
  | cons c rest ih =>
    cases hc : r.level.ofLetter? c with
    | none =>
      rw [takeLetters_of_unknown hc] at h
      cases h
    | some s =>
      cases hs : s.takesValue with
      | true =>
        rw [takeLetters_of_value hc hs] at h
        split at h
        · exact (awaitValue_eq_ok h).2
        · exact takeValue_escaped h
      | false =>
        rw [takeLetters_of_flag hc hs] at h
        obtain ⟨r₀, hr₀, hrest⟩ := bind_eq_ok_iff.mp h
        exact (ih hrest).trans (takeFlag_escaped hr₀)

/-- Only two dashes end the options. -/
theorem take_escaped {word : String} (hword : word ≠ "--") (h : r.take word = .ok r₁) :
    r₁.escaped = r.escaped := by
  cases hescaped : r.escaped with
  | true =>
    rw [take_of_escaped hescaped] at h
    rw [takePlain_escaped h, hescaped]
  | false =>
    rw [← hescaped]
    cases hkind : Word.of word with
    | escape => exact absurd (Word.of_eq_escape_iff.mp hkind) hword
    | long name value =>
      rw [take_of_long hescaped hkind] at h
      unfold takeLong at h
      split at h
      · cases h
      · split at h
        · exact (awaitValue_eq_ok h).2
        · exact takeFlag_escaped h
      · split at h
        · exact takeValue_escaped h
        · cases h
    | letters cs =>
      rw [take_of_letters hescaped hkind] at h
      exact takeLetters_escaped h
    | plain text =>
      by_cases hsome : ∃ s, r.pending = .option s none
      · obtain ⟨s, hs⟩ := hsome
        rw [take_of_awaited hescaped hkind hs] at h
        cases h
        rfl
      · rw [take_of_plain hescaped hkind fun s hs => hsome ⟨s, hs⟩] at h
        exact takePlain_escaped h

section formats

variable {cs tail tail' : List Char}

theorem ofLetter?_output (l : Level) : l.ofLetter? 'o' = some .output := by
  cases l <;> rfl

/-- The letters of flags lead both readings to the same letter, if the rest is read alike. -/
theorem takeLetters_append_follows (h : Hushable.Alike false r r') (hcs : ∀ c ∈ cs, FlagLetter c)
    (htail : ∀ r r' : Reading, Hushable.Alike false r r' →
      Follows false (r.takeLetters tail) (r'.takeLetters tail')) :
    Follows false (r.takeLetters (cs ++ tail)) (r'.takeLetters (cs ++ tail')) := by
  induction cs generalizing r r' with
  | nil => exact htail r r' h
  | cons c cs ih =>
    obtain ⟨hc, hrest⟩ := List.forall_mem_cons.mp hcs
    rw [List.cons_append, List.cons_append]
    cases hletter : r.level.ofLetter? c with
    | none =>
      rw [takeLetters_of_unknown hletter, takeLetters_of_unknown (h.level ▸ hletter)]
      exact .same .usage
    | some s =>
      have hs : s.takesValue = false := hc.takesValue (by simpa using List.find?_some hletter)
      rw [takeLetters_of_flag hletter hs, takeLetters_of_flag (h.level ▸ hletter) hs]
      apply (takeFlag_follows h s).bind
      · exact fun _ _ _ ha => ih ha hrest
      · exact fun hfalse => absurd hfalse (by decide)

theorem takeLetters_format (r : Reading) (f : OutputFormat) :
    r.takeLetters ('o' :: f.name.toList) = r.takeValue .output f.name := by
  rw [takeLetters_of_value (ofLetter?_output r.level) rfl]
  cases f <;> rfl

theorem takeLetters_equals_format (r : Reading) (f : OutputFormat) :
    r.takeLetters ('o' :: '=' :: f.name.toList) = r.takeValue .output f.name := by
  rw [takeLetters_of_value (ofLetter?_output r.level) rfl]
  cases f <;> rfl

theorem takeLong_format (r : Reading) (f : OutputFormat) :
    r.takeLong "output" (some f.name) = r.takeValue .output f.name := by
  have hlong : r.level.ofLong? "output" = some .output := by cases r.level <;> rfl
  simp [takeLong, hlong, Switch.takesValue]

/-- A word with a format in it is taken alike with another format in it. -/
theorem take_joined_follows (h : Hushable.Alike false r r') (hescaped : r.escaped = false)
    (hcs : FormatHead cs) (f f' : OutputFormat) :
    Follows false (r.take (String.ofList (cs ++ f.name.toList)))
      (r'.take (String.ofList (cs ++ f'.name.toList))) := by
  have hescaped' : r'.escaped = false := h.escaped.trans hescaped
  cases hcs with
  | long =>
    have hword : ∀ f : OutputFormat, Word.of (String.ofList ("--output=".toList ++ f.name.toList)) =
        .long "output" (some f.name) := by
      intro f
      cases f <;> decide
    rw [take_of_long hescaped (hword f), take_of_long hescaped' (hword f'), takeLong_format,
      takeLong_format]
    exact takeFormat_follows h f f'
  | @letters cs hcs =>
    have hword : ∀ f : OutputFormat,
        Word.of (String.ofList ('-' :: (cs ++ ['o']) ++ f.name.toList)) =
          .letters (cs ++ 'o' :: f.name.toList) := by
      intro f
      rw [← Word.of_letters hcs]
      simp
    rw [take_of_letters hescaped (hword f), take_of_letters hescaped' (hword f')]
    apply takeLetters_append_follows h hcs
    intro r r' h
    rw [takeLetters_format, takeLetters_format]
    exact takeFormat_follows h f f'
  | @equals cs hcs =>
    have hword : ∀ f : OutputFormat,
        Word.of (String.ofList ('-' :: (cs ++ ['o', '=']) ++ f.name.toList)) =
          .letters (cs ++ 'o' :: '=' :: f.name.toList) := by
      intro f
      rw [← Word.of_letters hcs]
      simp
    rw [take_of_letters hescaped (hword f), take_of_letters hescaped' (hword f')]
    apply takeLetters_append_follows h hcs
    intro r r' h
    rw [takeLetters_equals_format, takeLetters_equals_format]
    exact takeFormat_follows h f f'

/-- After such a word the format is awaited. -/
theorem take_formatOption (hescaped : r.escaped = false) (hcs : FormatOption cs)
    (h : r.take (String.ofList cs) = .ok r₁) : r₁.pending = .option .output none := by
  cases hcs with
  | long =>
    have hword : Word.of (String.ofList "--output".toList) = .long "output" none := by decide
    have hlong : r.level.ofLong? "output" = some .output := by cases r.level <;> rfl
    have htake : r.takeLong "output" none = r.awaitValue .output := by
      simp [takeLong, hlong, Switch.takesValue]
    rw [take_of_long hescaped hword, htake] at h
    exact (awaitValue_eq_ok h).1
  | @letters cs hcs =>
    rw [take_of_letters hescaped (Word.of_letters hcs)] at h
    clear hescaped
    induction cs generalizing r with
    | nil =>
      rw [List.nil_append, takeLetters_of_value (ofLetter?_output r.level) rfl] at h
      exact (awaitValue_eq_ok h).1
    | cons c cs ih =>
      obtain ⟨hc, hrest⟩ := List.forall_mem_cons.mp hcs
      rw [List.cons_append] at h
      cases hletter : r.level.ofLetter? c with
      | none =>
        rw [takeLetters_of_unknown hletter] at h
        cases h
      | some s =>
        have hs : s.takesValue = false := hc.takesValue (by simpa using List.find?_some hletter)
        rw [takeLetters_of_flag hletter hs] at h
        obtain ⟨r₀, -, hnext⟩ := bind_eq_ok_iff.mp h
        exact ih hrest hnext

end formats

end Reading

section levels

variable {r r' : Reading} {defaults : OptionVariables} {words words' : List String}

/-- A word without dashes is the value of the option that awaits one. -/
theorem readLevel_of_awaited {s : Switch} {word text : String} (hs : r.pending = .option s none)
    (hescaped : r.escaped = false) (hword : Word.of word = .plain text) :
    readLevel defaults r (word :: words) =
      readLevel defaults { r with pending := .option s (some word) } words := by
  have hexpects : r.expectsCommand = false := by simp [Reading.expectsCommand, hs]
  rw [readLevel_of_word fun h => absurd (hexpects.symm.trans h) (by decide),
    Reading.take_of_awaited hescaped hword hs]
  rfl

/-- A command line with other formats is read alike. -/
theorem Reformatted.readLevel (hwords : Reformatted words words')
    (h : Hushable.Alike false r r') (hescaped : r.escaped = false) :
    Follows false (readLevel defaults r words) (readLevel defaults r' words') := by
  have htrue : ∀ {P : Prop}, false = true → P := fun hfalse => absurd hfalse (by decide)
  induction hwords generalizing r r' with
  | refl words => exact readLevel_follows h words
  | @same word words words' hword hwords ih =>
    apply readLevel_cons_follows h word
    · exact fun _ => hwords.leadsToHelp
    · exact fun child => ih (.refl (.start child)) rfl
    · exact htrue
    · exact fun a a' ha haa' => ih haa' ((Reading.take_escaped hword ha).trans hescaped)
    · exact htrue
  | @next cs words words' hcs f f' hwords ih =>
    have hdash : (String.ofList cs).toList.head? = some '-' := by simpa using hcs.head?
    rw [readLevel_of_word fun _ => not_command_of_dash hdash r.level,
      readLevel_of_word fun _ => not_command_of_dash hdash r'.level]
    apply (Reading.take_follows h _).bind
    · -- the first word awaits the format, and the second gives it
      intro a a' ha haa'
      have ha_escaped : a.escaped = false :=
        (Reading.take_escaped (ne_dashes hcs.letter_mem) ha).trans hescaped
      have ha_pending := Reading.take_formatOption hescaped hcs ha
      have hword : ∀ f : OutputFormat, Word.of f.name = .plain f.name := by
        intro f
        cases f <;> decide
      rw [readLevel_of_awaited ha_pending ha_escaped (hword f),
        readLevel_of_awaited ((haa'.pending_eq_iff (by simp)).mpr ha_pending)
          (haa'.escaped.trans ha_escaped) (hword f')]
      exact ih ⟨haa'.level, haa'.given, .format rfl f f', haa'.filled, haa'.escaped⟩ ha_escaped
    · exact htrue
  | @joined cs words words' hcs f f' hwords ih =>
    have hdash (f : OutputFormat) :
        (String.ofList (cs ++ f.name.toList)).toList.head? = some '-' := by
      simpa using hcs.head?_append f
    rw [readLevel_of_word fun _ => not_command_of_dash (hdash f) r.level,
      readLevel_of_word fun _ => not_command_of_dash (hdash f') r'.level]
    apply (Reading.take_joined_follows h hescaped hcs f f').bind
    · intro a a' ha haa'
      have hword : String.ofList (cs ++ f.name.toList) ≠ "--" :=
        ne_dashes (List.mem_append_left _ hcs.letter_mem)
      exact ih haa' ((Reading.take_escaped hword ha).trans hescaped)
    · exact htrue

end levels

end TrafficWarden
