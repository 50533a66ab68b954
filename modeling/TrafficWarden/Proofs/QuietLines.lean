import TrafficWarden.Proofs.CommandLines

/-!
# Command lines with a word that asks to be quiet

Such a word may stand anywhere before two dashes but between an option and its value, if the command
line is not quiet anyway. It only judges earlier what is due at that point, and the command line is
read as without it.
-/

namespace TrafficWarden

open Hushable

namespace Reading

variable {r r' r₁ : Reading} {defaults : OptionVariables} {word : String} {words : List String}

/-- Whether what is pending may be judged: no option waits for its value. -/
def IsDue (r : Reading) : Prop := ∀ s, r.pending ≠ .option s none

/-- Two readings at one point that become the same when what is pending in them is judged. Only
words that are still to be judged with others may be wrong. -/
structure SettleAlike (r r' : Reading) : Prop where
  level : r'.level = r.level
  filled : r'.filled = r.filled
  escaped : r'.escaped = r.escaped
  settle : r'.settle = r.settle
  due : r.IsDue
  due' : r'.IsDue
  words : (∃ r₁, r.settle = .ok r₁) ∨
    ∃ ws ws', r.pending = .words ws ∧ r'.pending = .words ws'

theorem settle_of_nothing (h : r.pending = .nothing) : r.settle = .ok r := by
  simp [Reading.settle, h]

theorem settleAlike_of_settle (h : r.settle = .ok r₁) : SettleAlike r r₁ := by
  have hsettles := settles h
  have hdue : r.IsDue := by
    intro s hs
    simp [Reading.settle, hs] at h
  refine ⟨hsettles.level, hsettles.filled, hsettles.escaped, ?_, hdue, ?_, .inl ⟨r₁, h⟩⟩
  · rw [settle_of_nothing hsettles.pending, h]
  · intro s hs
    rw [hsettles.pending] at hs
    cases hs

theorem slots_eq_many (l : Level) (h : l.slots = .many) : l = .compile := by
  cases l <;> first | rfl | cases h

theorem setWords_compile (g : Given) (ws : List String) :
    g.setWords .compile ws = match ws.mapM idValue? with
      | some ids => .ok { g with ids := g.ids ++ ids }
      | none => .error .usage := rfl

/-- Words may be judged one by one. -/
theorem settle_append_words {ws : List String} (hslots : r.level.slots = .many)
    (hp : r.pending = .words ws) :
    settle { r with pending := .words (ws ++ [word]) } =
      (r.settle >>= fun r₁ => settle { r₁ with pending := .words [word] }) := by
  have hlevel := slots_eq_many r.level hslots
  obtain ⟨level, given, pending, filled, escaped⟩ := r
  obtain rfl : level = .compile := hlevel
  obtain rfl : pending = .words ws := hp
  -- identities are read one by one, whether the words are judged together or not
  cases hids : ws.mapM idValue? with
  | none => simp [Reading.settle, setWords_compile, hids, bind, Except.bind]
  | some ids =>
    cases hid : idValue? word with
    | none =>
      simp [Reading.settle, setWords_compile, hids, hid, bind, Except.bind, pure, Except.pure]
    | some id =>
      simp [Reading.settle, setWords_compile, hids, hid, bind, Except.bind, pure, Except.pure]

/-- Judging what is pending has nothing to do with two dashes. -/
theorem settle_escape (r : Reading) : settle { r with escaped := true } =
    (r.settle >>= fun r₁ => .ok { r₁ with escaped := true }) := by
  obtain ⟨level, given, pending, filled, escaped⟩ := r
  cases pending with
  | nothing => rfl
  | option s value =>
    cases value with
    | none => rfl
    | some value =>
      change (given.setValue s value >>= _) = (given.setValue s value >>= _) >>= _
      cases given.setValue s value <;> rfl
  | words ws =>
    change (given.setWords level ws >>= _) = (given.setWords level ws >>= _) >>= _
    cases given.setWords level ws <;> rfl

/-- Taking a word that stands in a row of words. -/
theorem takePlain_many (word : String) (hslots : r.level.slots = .many)
    (hok : (∃ r₁, r.settle = .ok r₁) ∨ ∃ ws, r.pending = .words ws) :
    ∃ a ws, r.takePlain word = .ok a ∧ a.level = r.level ∧ a.filled = r.filled ∧
      a.escaped = r.escaped ∧ a.pending = .words ws ∧
      a.settle = (r.settle >>= fun r₁ => settle { r₁ with pending := .words [word] }) := by
  by_cases hsome : ∃ ws, r.pending = .words ws
  · obtain ⟨ws, hws⟩ := hsome
    exact ⟨_, _, takePlain_of_words hslots hws, rfl, rfl, rfl, rfl, settle_append_words hslots hws⟩
  · obtain ⟨r₁, hr₁⟩ := hok.resolve_right hsome
    have hsettles := settles hr₁
    refine ⟨{ r₁ with pending := .words [word] }, [word], ?_, hsettles.level, hsettles.filled,
      hsettles.escaped, rfl, ?_⟩
    · rw [takePlain_of_not_words hslots fun ws hws => hsome ⟨ws, hws⟩, hr₁]
      rfl
    · rw [hr₁]
      rfl

/-- Two results of the next step: they are the same, or they are alike as before. -/
def NextAlike (x x' : Except Stop Reading) : Prop :=
  x' = x ∨ ∃ a a', x = .ok a ∧ x' = .ok a' ∧ SettleAlike a a'

theorem SettleAlike.takePlain (h : SettleAlike r r') (word : String) :
    NextAlike (r.takePlain word) (r'.takePlain word) := by
  cases hslots : r.level.slots with
  | none =>
    rw [takePlain_of_none hslots, takePlain_of_none (h.level ▸ hslots)]
    exact .inl rfl
  | one =>
    rw [takePlain_of_one hslots, takePlain_of_one (h.level ▸ hslots), h.filled, h.settle]
    exact .inl rfl
  | many =>
    obtain ⟨a, ws, htake, hlevel, hfilled, hescaped, hpending, hsettle⟩ :=
      takePlain_many word hslots (h.words.imp_right fun ⟨ws, _, hws, _⟩ => ⟨ws, hws⟩)
    obtain ⟨a', ws', htake', hlevel', hfilled', hescaped', hpending', hsettle'⟩ :=
      takePlain_many word (h.level ▸ hslots)
        (h.words.imp (fun ⟨r₁, hr₁⟩ => ⟨r₁, h.settle.trans hr₁⟩) fun ⟨_, ws, _, hws⟩ => ⟨ws, hws⟩)
    refine .inr ⟨a, a', htake, htake', ?_, ?_, ?_, ?_, ?_, ?_, .inr ⟨ws, ws', ?_, ?_⟩⟩
    · rw [hlevel', hlevel, h.level]
    · rw [hfilled', hfilled, h.filled]
    · rw [hescaped', hescaped, h.escaped]
    · rw [hsettle', hsettle, h.settle]
    · simp [IsDue, hpending]
    · simp [IsDue, hpending']
    · exact hpending
    · exact hpending'

theorem SettleAlike.take (h : SettleAlike r r') (word : String) :
    NextAlike (r.take word) (r'.take word) := by
  cases hescaped : r.escaped with
  | true =>
    rw [take_of_escaped hescaped, take_of_escaped (h.escaped.trans hescaped)]
    exact h.takePlain word
  | false =>
    have hescaped' : r'.escaped = false := h.escaped.trans hescaped
    cases hword : Word.of word with
    | escape =>
      refine .inr ⟨_, _, take_of_escape hescaped hword, take_of_escape hescaped' hword, h.level,
        h.filled, rfl, ?_, h.due, h.due', ?_⟩
      · rw [settle_escape, settle_escape, h.settle]
      · refine h.words.imp_left fun ⟨r₁, hr₁⟩ => ⟨{ r₁ with escaped := true }, ?_⟩
        rw [settle_escape, hr₁]
        rfl
    | long name value =>
      rw [take_of_long hescaped hword, take_of_long hescaped' hword]
      simp only [takeLong, awaitValue, takeFlag, takeValue, h.level, h.settle]
      exact .inl rfl
    | letters cs =>
      rw [take_of_letters hescaped hword, take_of_letters hescaped' hword]
      cases cs with
      | nil => exact .inr ⟨r, r', rfl, rfl, h⟩
      | cons c rest =>
        simp only [takeLetters, awaitValue, takeFlag, takeValue, h.level, h.settle]
        exact .inl rfl
    | plain text =>
      rw [take_of_plain hescaped hword h.due, take_of_plain hescaped' hword h.due']
      exact h.takePlain word

theorem SettleAlike.expectsCommand (h : SettleAlike r r') :
    r'.expectsCommand = r.expectsCommand := by
  have hnot : ∀ r : Reading, r.IsDue →
      r.expectsCommand = (r.level.isGroup && !r.escaped) := by
    intro r hdue
    unfold Reading.expectsCommand
    split
    · rename_i s hs
      exact absurd hs (hdue s)
    · exact Bool.and_true _
  rw [hnot r h.due, hnot r' h.due', h.level, h.escaped]

/-- What is due may be judged before the next word or with it. -/
theorem SettleAlike.readLevel (h : SettleAlike r r') (words : List String) :
    readLevel defaults r' words = readLevel defaults r words := by
  induction words generalizing r r' with
  | nil => simp only [TrafficWarden.readLevel, Reading.finish, h.settle, h.level]
  | cons word rest ih =>
    have hexpects := h.expectsCommand
    cases r.meets word with
    | word hnot =>
      rw [readLevel_of_word hnot, readLevel_of_word (by rw [hexpects, h.level]; exact hnot)]
      rcases h.take word with heq | ⟨a, a', ha, ha', haa'⟩
      · rw [heq]
      · rw [ha, ha']
        exact ih haa'
    | help hcommand hhelp =>
      subst hhelp
      rw [readLevel_of_help hcommand, readLevel_of_help (hexpects.trans hcommand), h.level]
    | command child hcommand hhelp hchild =>
      rw [readLevel_of_command hcommand hhelp hchild,
        readLevel_of_command (hexpects.trans hcommand) hhelp (h.level ▸ hchild)]
      simp only [Reading.finish, h.settle]

theorem isDue_start (l : Level) : (start l).IsDue := by simp [IsDue, start]

/-- After a word without dashes no option waits for its value. -/
theorem isDue_of_take_plain {text : String} (hescaped : r.escaped = false)
    (hword : Word.of word = .plain text) (h : r.take word = .ok r₁) : r₁.IsDue := by
  by_cases hsome : ∃ s, r.pending = .option s none
  · obtain ⟨s, hs⟩ := hsome
    rw [take_of_awaited hescaped hword hs] at h
    cases h
    simp [IsDue]
  · rw [take_of_plain hescaped hword fun s hs => hsome ⟨s, hs⟩] at h
    unfold takePlain at h
    split at h
    · cases h
    · split at h
      · cases h
      · obtain ⟨r₀, -, hnext⟩ := bind_eq_ok_iff.mp h
        cases hnext
        simp [IsDue]
    · cases h
      simp [IsDue]
    · obtain ⟨r₀, -, hnext⟩ := bind_eq_ok_iff.mp h
      cases hnext
      simp [IsDue]

/-- A step that judges what is due, or puts it off. -/
def JudgesOrDefers (r r₁ : Reading) : Prop :=
  (∃ r₀, r.settle = .ok r₀) ∨
    r₁.IsDue ∧ ((∃ r₂, r₁.settle = .ok r₂) → ∃ r₀, r.settle = .ok r₀)

theorem exists_settle_of_bind {α : Type} {f : Reading → Except Stop α} {a : α}
    (h : (r.settle >>= f) = .ok a) : ∃ r₀, r.settle = .ok r₀ :=
  (bind_eq_ok_iff.mp h).imp fun _ => And.left

theorem judges_of_bind {f : Reading → Except Stop Reading} (h : (r.settle >>= f) = .ok r₁) :
    JudgesOrDefers r r₁ :=
  .inl (exists_settle_of_bind h)

theorem judgesOrDefers_of_takePlain (h : r.takePlain word = .ok r₁) : JudgesOrDefers r r₁ := by
  cases hslots : r.level.slots with
  | none =>
    rw [takePlain_of_none hslots] at h
    cases h
  | one =>
    rw [takePlain_of_one hslots] at h
    split at h
    · cases h
    · exact judges_of_bind h
  | many =>
    by_cases hsome : ∃ ws, r.pending = .words ws
    · obtain ⟨ws, hws⟩ := hsome
      rw [takePlain_of_words hslots hws] at h
      cases h
      refine .inr ⟨by simp [IsDue], fun ⟨r₂, hr₂⟩ => ?_⟩
      rw [settle_append_words hslots hws] at hr₂
      exact exists_settle_of_bind hr₂
    · rw [takePlain_of_not_words hslots fun ws hws => hsome ⟨ws, hws⟩] at h
      exact judges_of_bind h

theorem judges_of_takeLong {name : String} {value : Option String}
    (h : r.takeLong name value = .ok r₁) : JudgesOrDefers r r₁ := by
  unfold takeLong at h
  split at h
  · cases h
  · split at h
    · exact judges_of_bind h
    · exact judges_of_bind h
  · split at h
    · exact judges_of_bind h
    · cases h

theorem judgesOrDefers_of_takeLetters (hdue : r.IsDue) {cs : List Char}
    (h : r.takeLetters cs = .ok r₁) : JudgesOrDefers r r₁ := by
  cases cs with
  | nil =>
    cases h
    exact .inr ⟨hdue, id⟩
  | cons c rest =>
    cases hc : r.level.ofLetter? c with
    | none =>
      rw [takeLetters_of_unknown hc] at h
      cases h
    | some s =>
      cases hs : s.takesValue with
      | true =>
        rw [takeLetters_of_value hc hs] at h
        split at h
        · exact judges_of_bind h
        · exact judges_of_bind h
      | false =>
        rw [takeLetters_of_flag hc hs] at h
        obtain ⟨r₀, hr₀, -⟩ := bind_eq_ok_iff.mp h
        exact .inl (exists_settle_of_bind hr₀)

theorem judgesOrDefers_of_take (hdue : r.IsDue) (h : r.take word = .ok r₁) :
    JudgesOrDefers r r₁ := by
  cases hescaped : r.escaped with
  | true =>
    rw [take_of_escaped hescaped] at h
    exact judgesOrDefers_of_takePlain h
  | false =>
    cases hword : Word.of word with
    | escape =>
      rw [take_of_escape hescaped hword] at h
      cases h
      refine .inr ⟨hdue, fun ⟨r₂, hr₂⟩ => ?_⟩
      rw [settle_escape] at hr₂
      exact exists_settle_of_bind hr₂
    | long name value =>
      rw [take_of_long hescaped hword] at h
      exact judges_of_takeLong h
    | letters cs =>
      rw [take_of_letters hescaped hword] at h
      exact judgesOrDefers_of_takeLetters hdue h
    | plain text =>
      rw [take_of_plain hescaped hword hdue] at h
      exact judgesOrDefers_of_takePlain h

/-- What is due in a command line that is accepted is right, as it is judged in the end. -/
theorem exists_settle_of_readLevel {p : Level × Given} (hdue : r.IsDue)
    (h : TrafficWarden.readLevel defaults r words = .ok p) : ∃ r₁, r.settle = .ok r₁ := by
  induction words generalizing r p with
  | nil =>
    rw [TrafficWarden.readLevel] at h
    obtain ⟨given, hgiven, -⟩ := bind_eq_ok_iff.mp h
    exact exists_settle_of_bind hgiven
  | cons word rest ih =>
    cases r.meets word with
    | word hnot =>
      rw [readLevel_of_word hnot] at h
      obtain ⟨a, ha, hrest⟩ := bind_eq_ok_iff.mp h
      rcases judgesOrDefers_of_take hdue ha with hsettle | ⟨hdue', hsettle⟩
      · exact hsettle
      · exact hsettle (ih hdue' hrest)
    | help hcommand hhelp =>
      subst hhelp
      rw [readLevel_of_help hcommand] at h
      cases h
    | command child hcommand hhelp hchild =>
      rw [readLevel_of_command hcommand hhelp hchild] at h
      obtain ⟨below, -, hlevel⟩ := bind_eq_ok_iff.mp h
      obtain ⟨given, hgiven, -⟩ := bind_eq_ok_iff.mp hlevel
      exact exists_settle_of_bind hgiven

end Reading

theorem Word.exists_plain {word : String} (h : word.toList.head? ≠ some '-') :
    ∃ text, Word.of word = .plain text := by
  refine ⟨word, ?_⟩
  unfold Word.of
  split <;> simp_all

/-- The words by which the program is asked to be quiet. -/
def QuietWord (word : String) : Prop := word = "-q" ∨ word = "--quiet"

section quiet

variable {word : String} {r : Reading} {defaults : OptionVariables} {before after : List String}
variable {p' : Level × Given}

theorem QuietWord.head? (h : QuietWord word) : word.toList.head? = some '-' := by
  rcases h with rfl | rfl <;> decide

theorem QuietWord.take (h : QuietWord word) (hescaped : r.escaped = false) :
    r.take word = r.takeFlag .quiet := by
  have hletter : r.level.ofLetter? 'q' = some .quiet := by cases r.level <;> rfl
  have hlong : r.level.ofLong? "quiet" = some .quiet := by cases r.level <;> rfl
  rcases h with rfl | rfl
  · have hword : Word.of "-q" = .letters ['q'] := by decide
    rw [Reading.take_of_letters hescaped hword, Reading.takeLetters_of_flag hletter rfl]
    cases r.takeFlag .quiet <;> rfl
  · have hword : Word.of "--quiet" = .long "quiet" none := by decide
    rw [Reading.take_of_long hescaped hword]
    simp [Reading.takeLong, hlong, Switch.takesValue]

/-- A reading that may be told to be quiet was not so before. -/
theorem takeFlag_quiet_eq_ok {r₂ : Reading} (h : r.takeFlag .quiet = .ok r₂) :
    ∃ r₁, r.settle = .ok r₁ ∧ Hushable.Alike true r₁ r₂ := by
  obtain ⟨r₁, hr₁, hflag⟩ := bind_eq_ok_iff.mp h
  obtain ⟨given, hgiven, hr₂⟩ := bind_eq_ok_iff.mp hflag
  cases hr₂
  have hquiet : r₁.given.Alike true given := by
    cases hg : r₁.given.quiet with
    | true => simp [Given.setFlag, raised, hg, bind, Except.bind] at hgiven
    | false =>
      refine ⟨r₁.given.output, rfl, fun _ => rfl, ?_⟩
      simpa [Given.setFlag, raised, hg, bind, Except.bind, pure, Except.pure] using hgiven.symm
  exact ⟨r₁, hr₁, rfl, hquiet, .same _, rfl, rfl⟩

theorem Given.Alike.overlay_right {below below' : Given} (h : below.Alike true below')
    (g : Given) : (below.overlay g).Alike true (below'.overlay g) := by
  obtain ⟨output, -, hformat, rfl⟩ := h
  refine ⟨output <|> g.output, ?_, ?_, ?_⟩
  · rw [hformat rfl]
    rfl
  · rw [hformat rfl]
    exact fun _ => rfl
  · simp [Given.overlay]

/-- A command line with a word that asks to be quiet, if it is accepted, is read like the one
without it. -/
theorem readLevel_of_quietWord (hword : QuietWord word) (hbefore : "--" ∉ before)
    (hescaped : r.escaped = false)
    (h : readLevel defaults r (before ++ word :: after) = .ok p') :
    ∃ p, readLevel defaults r (before ++ after) = .ok p ∧ Hushable.Alike true p p' := by
  induction before generalizing r p' with
  | nil =>
    rw [List.nil_append, readLevel_of_word fun _ => not_command_of_dash hword.head? r.level,
      hword.take hescaped] at h
    -- the word judges what is due, and the words after it are read quietly
    obtain ⟨r₂, hr₂, hafter⟩ := bind_eq_ok_iff.mp h
    obtain ⟨r₁, hr₁, halike⟩ := takeFlag_quiet_eq_ok hr₂
    have hfollows : Follows true (readLevel defaults r₁ after) (readLevel defaults r₂ after) :=
      readLevel_follows halike after
    rw [hafter] at hfollows
    generalize hx : readLevel defaults r₁ after = x at hfollows
    cases hfollows with
    | @ok p _ hp =>
      refine ⟨p, ?_, hp⟩
      rw [List.nil_append, ← (Reading.settleAlike_of_settle hr₁).readLevel, hx]
  | cons first before ih =>
    have hfirst : first ≠ "--" := fun heq => hbefore (heq ▸ List.mem_cons_self)
    have hrest : "--" ∉ before := fun hmem => hbefore (List.mem_cons_of_mem _ hmem)
    cases r.meets first with
    | word hnot =>
      rw [List.cons_append, readLevel_of_word hnot] at h ⊢
      obtain ⟨a, ha, hnext⟩ := bind_eq_ok_iff.mp h
      obtain ⟨p, hp, halike⟩ := ih hrest ((Reading.take_escaped hfirst ha).trans hescaped) hnext
      exact ⟨p, by rw [ha]; exact hp, halike⟩
    | help hcommand hhelp =>
      subst hhelp
      rw [List.cons_append, readLevel_of_help hcommand] at h
      cases h
    | command child hcommand hhelp hchild =>
      rw [List.cons_append, readLevel_of_command hcommand hhelp hchild] at h ⊢
      obtain ⟨⟨lowest, below'⟩, hbelow', hlevel⟩ := bind_eq_ok_iff.mp h
      obtain ⟨given, hgiven, hp'⟩ := bind_eq_ok_iff.mp hlevel
      cases hp'
      obtain ⟨⟨_, below⟩, hbelow, rfl, halike⟩ := ih hrest rfl hbelow'
      refine ⟨(lowest, below.overlay given), ?_, rfl, halike.overlay_right given⟩
      rw [hbelow, hgiven]
      rfl

theorem isQuiet_of_readLevel {p : Level × Given} (hr : isQuiet r = true)
    (h : readLevel defaults r after = .ok p) : isQuiet p = true := by
  have hfollows : Follows true (readLevel defaults r after) (readLevel defaults r after) :=
    readLevel_follows ((alike_self_iff r).mpr hr) after
  rw [h] at hfollows
  cases hfollows with
  | ok hp => exact (alike_self_iff p).mp hp

/-- A word that asks to be quiet is accepted at the front of a command line that is not quiet, and
after each word without dashes. -/
theorem exists_readLevel_of_quietWord {p : Level × Given} (hword : QuietWord word)
    (hbefore : "--" ∉ before) (hescaped : r.escaped = false)
    (hdue : before = [] → r.IsDue)
    (hlast : ∀ last ∈ before.getLast?, ∃ text, Word.of last = .plain text)
    (h : readLevel defaults r (before ++ after) = .ok p) (hquiet : isQuiet p = false) :
    ∃ p', readLevel defaults r (before ++ word :: after) = .ok p' := by
  induction before generalizing r p with
  | nil =>
    obtain ⟨r₁, hr₁⟩ := Reading.exists_settle_of_readLevel (hdue rfl) h
    rw [List.nil_append, ← (Reading.settleAlike_of_settle hr₁).readLevel] at h
    have hr₁_quiet : r₁.given.quiet = false := by
      cases hr : r₁.given.quiet with
      | false => rfl
      | true => exact absurd ((isQuiet_of_readLevel hr h).symm.trans hquiet) (by decide)
    have hflag : r.takeFlag .quiet = .ok { r₁ with given := { r₁.given with quiet := true } } := by
      simp [Reading.takeFlag, hr₁, Given.setFlag, raised, hr₁_quiet, bind, Except.bind, pure,
        Except.pure]
    obtain ⟨_, hr₁', halike⟩ := takeFlag_quiet_eq_ok hflag
    obtain rfl := Except.ok.inj (hr₁.symm.trans hr₁')
    have hfollows : Follows true (readLevel defaults r₁ after) (readLevel defaults _ after) :=
      readLevel_follows halike after
    rw [List.nil_append, readLevel_of_word fun _ => not_command_of_dash hword.head? r.level,
      hword.take hescaped, hflag]
    rw [h] at hfollows
    change ∃ p', readLevel defaults _ after = .ok p'
    generalize readLevel defaults _ after = x at hfollows
    cases hfollows with
    | ok _ => exact ⟨_, rfl⟩
    | refused _ hp => exact absurd (hp.symm.trans hquiet) (by decide)
  | cons first before ih =>
    have hfirst : first ≠ "--" := fun heq => hbefore (heq ▸ List.mem_cons_self)
    have hrest : "--" ∉ before := fun hmem => hbefore (List.mem_cons_of_mem _ hmem)
    have hlast' : ∀ last ∈ before.getLast?, ∃ text, Word.of last = .plain text := by
      intro last hmem
      apply hlast last
      rw [List.getLast?_cons]
      simp [Option.mem_def.mp hmem]
    cases r.meets first with
    | word hnot =>
      rw [List.cons_append, readLevel_of_word hnot] at h ⊢
      obtain ⟨a, ha, hnext⟩ := bind_eq_ok_iff.mp h
      rw [ha]
      apply ih hrest ((Reading.take_escaped hfirst ha).trans hescaped) _ hlast' hnext hquiet
      rintro rfl
      obtain ⟨text, htext⟩ := hlast first rfl
      exact Reading.isDue_of_take_plain hescaped htext ha
    | help hcommand hhelp =>
      subst hhelp
      rw [List.cons_append, readLevel_of_help hcommand] at h
      cases h
    | command child hcommand hhelp hchild =>
      rw [List.cons_append, readLevel_of_command hcommand hhelp hchild] at h ⊢
      obtain ⟨⟨lowest, below⟩, hbelow, hlevel⟩ := bind_eq_ok_iff.mp h
      obtain ⟨given, hgiven, hp⟩ := bind_eq_ok_iff.mp hlevel
      cases hp
      have hbelow_quiet : below.quiet = false := (Bool.or_eq_false_iff.mp hquiet).1
      obtain ⟨p', hp'⟩ :=
        ih hrest rfl (fun _ => Reading.isDue_start child) hlast' hbelow hbelow_quiet
      rw [hp', hgiven]
      exact ⟨_, rfl⟩

end quiet

end TrafficWarden
