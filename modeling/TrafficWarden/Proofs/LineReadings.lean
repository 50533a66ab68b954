import TrafficWarden.Command.Reader

/-!
# Readings that differ in output options

Two readings of command lines may differ in the format that is given, or in that one of them is to
be quiet. The same words then lead to readings that differ in the same way, but where a quiet
reading is told to be quiet again: this is refused.
-/

namespace TrafficWarden

/-- What is read, with whether it is to be quiet. Two of them are alike if they differ in nothing
but the format, or, in the hushed way, in nothing but that the second is quiet. -/
class Hushable (α : Type) where
  isQuiet : α → Bool
  Alike : Bool → α → α → Prop
  alike_self_iff : ∀ a, Alike true a a ↔ isQuiet a = true

open Hushable

section follows

variable {α β : Type} [Hushable α] [Hushable β] {hushed : Bool}

/-- Two results of reading. They are alike, or both readings stop, at the same point if nothing is
hushed; or the second is refused where the first is quiet anyway. -/
inductive Follows (hushed : Bool) : Except Stop α → Except Stop α → Prop
  | ok {a a' : α} (h : Alike hushed a a') : Follows hushed (.ok a) (.ok a')
  | stop {s s' : Stop} (h : hushed = false → s = s') : Follows hushed (.error s) (.error s')
  | refused {a : α} {s : Stop} (h : hushed = true) (ha : isQuiet a = true) :
      Follows hushed (.ok a) (.error s)

theorem Follows.same (s : Stop) : Follows hushed (.error s : Except Stop α) (.error s) :=
  .stop fun _ => rfl

theorem Follows.bind {x y : Except Stop α} {f g : α → Except Stop β} (h : Follows hushed x y)
    (hf : ∀ a a', x = .ok a → Alike hushed a a' → Follows hushed (f a) (g a'))
    (hself : hushed = true → ∀ a, isQuiet a = true → Follows true (f a) (f a)) :
    Follows hushed (x >>= f) (y >>= g) := by
  cases h with
  | ok h => exact hf _ _ rfl h
  | stop h => exact .stop h
  | @refused a s h ha =>
    have hquiet := hself h a ha
    change Follows hushed (f a) (.error s)
    cases hfa : f a with
    | error s => exact .stop fun hfalse => absurd (h.symm.trans hfalse) (by decide)
    | ok c =>
      rw [hfa] at hquiet
      cases hquiet with
      | ok hc => exact .refused h ((alike_self_iff c).mp hc)

/-- One step after two results that are alike. -/
theorem Follows.bind_step {x y : Except Stop α} {f : α → Except Stop β} (h : Follows hushed x y)
    (hf : ∀ hushed a a', Alike hushed a a' → Follows hushed (f a) (f a')) :
    Follows hushed (x >>= f) (y >>= f) :=
  h.bind (fun a a' _ => hf hushed a a') fun _ a ha => hf true a a ((alike_self_iff a).mpr ha)

end follows

namespace Given

/-- What is given but for the format, which is there in both or in none. -/
def Alike (hushed : Bool) (g g' : Given) : Prop :=
  ∃ output : Option OutputFormat, output.isSome = g.output.isSome ∧
    (hushed = true → output = g.output) ∧
    g' = { g with output := output, quiet := g.quiet || hushed }

instance : Hushable Given where
  isQuiet := Given.quiet
  Alike := Alike
  alike_self_iff g := by
    constructor
    · rintro ⟨output, -, -, hg⟩
      have hquiet := congrArg Given.quiet hg
      simpa using hquiet
    · intro hquiet
      refine ⟨g.output, rfl, fun _ => rfl, ?_⟩
      rw [hquiet]
      cases g
      simp_all

variable {hushed : Bool} {g g' : Given}

theorem Alike.refl (g : Given) : Alike false g g :=
  ⟨g.output, rfl, fun _ => rfl, by cases g; simp⟩

/-- A field is given once, in a way in which it does not matter what the output options are. -/
theorem follows_once {γ : Type} {set set' : Option γ → Given} (before value : Option γ)
    (hset : ∀ a, Alike hushed (set a) (set' a)) :
    Follows hushed (do return set (← once before value))
      (do return set' (← once before value)) := by
  cases honce : once before value with
  | ok a => exact .ok (hset a)
  | error s => exact .same s

/-- The format is given once in both or in none. -/
theorem follows_output (h : Alike hushed g g') {format format' : Option OutputFormat}
    (hsome : format'.isSome = format.isSome) (hsame : hushed = true → format' = format) :
    Follows hushed (do return { g with output := ← once g.output format })
      (do return { g' with output := ← once g'.output format' }) := by
  obtain ⟨output, houtput, -, rfl⟩ := h
  cases hg : g.output with
  | some f =>
    rw [hg] at houtput
    obtain ⟨f', rfl⟩ := Option.isSome_iff_exists.mp houtput
    exact .same .usage
  | none =>
    rw [hg] at houtput
    obtain rfl : output = none := by simpa using houtput
    cases format with
    | none =>
      obtain rfl : format' = none := by simpa using hsome
      exact .same .usage
    | some f =>
      obtain ⟨f', rfl⟩ := Option.isSome_iff_exists.mp hsome
      exact .ok ⟨some f', rfl, hsame, rfl⟩

theorem setValue_follows (h : Alike hushed g g') (s : Switch) (value : String) :
    Follows hushed (g.setValue s value) (g'.setValue s value) := by
  cases s with
  | output => exact follows_output h rfl fun _ => rfl
  | config | catalog | script | outside | inside | color | moment | interval =>
    obtain ⟨output, hsome, hsame, rfl⟩ := h
    exact follows_once _ _ fun a => ⟨output, hsome, hsame, rfl⟩
  | _ => exact .same .usage

theorem follows_raised {set set' : Bool → Given} (before : Bool)
    (hset : Alike hushed (set true) (set' true)) :
    Follows hushed (do return set (← raised before)) (do return set' (← raised before)) := by
  cases before with
  | false => exact .ok hset
  | true => exact .same .usage

/-- Both are given a format, each its own. -/
theorem setFormat_follows (h : Alike false g g') (f f' : OutputFormat) :
    Follows false (g.setValue .output f.name) (g'.setValue .output f'.name) := by
  apply follows_output h
  · rw [OutputFormat.ofName?_name, OutputFormat.ofName?_name]
    rfl
  · exact fun hfalse => absurd hfalse (by decide)

theorem setFlag_follows (h : Alike hushed g g') (s : Switch) :
    Follows hushed (g.setFlag s) (g'.setFlag s) := by
  obtain ⟨output, hsome, hsame, rfl⟩ := h
  cases s with
  | verbose => exact .ok ⟨output, hsome, hsame, rfl⟩
  | quiet =>
    have hquiet : ∀ g : Given, g.setFlag .quiet =
        if g.quiet then .error .usage else .ok { g with quiet := true } := by
      intro g
      cases h : g.quiet <;> simp [setFlag, raised, h, bind, Except.bind, pure, Except.pure]
    rw [hquiet, hquiet]
    cases hg : g.quiet with
    | true => exact .same .usage
    | false =>
      cases hushed with
      | true => exact .refused rfl rfl
      | false => exact .ok ⟨output, hsome, hsame, rfl⟩
  | logJson | active | force | dryRun | overwrite =>
    exact follows_raised _ ⟨output, hsome, hsame, rfl⟩
  | help | version => exact .same .help
  | _ => exact .same .usage

theorem setWords_follows (h : Alike hushed g g') (l : Level) (words : List String) :
    Follows hushed (g.setWords l words) (g'.setWords l words) := by
  obtain ⟨output, hsome, hsame, rfl⟩ := h
  unfold setWords
  split
  · exact follows_once _ _ fun a => ⟨output, hsome, hsame, rfl⟩
  · cases words.mapM idValue? with
    | some ids => exact .ok ⟨output, hsome, hsame, rfl⟩
    | none => exact .same .usage

end Given

/-- What is pending in two readings: the same, or the format that is given. -/
inductive Pending.Alike (hushed : Bool) : Pending → Pending → Prop
  | same (p : Pending) : Alike hushed p p
  | format (h : hushed = false) (f f' : OutputFormat) :
      Alike hushed (.option .output (some f.name)) (.option .output (some f'.name))

namespace Reading

/-- Two readings at one point of the same level, with what is given and pending alike. -/
structure Alike (hushed : Bool) (r r' : Reading) : Prop where
  level : r'.level = r.level
  given : r.given.Alike hushed r'.given
  pending : r.pending.Alike hushed r'.pending
  filled : r'.filled = r.filled
  escaped : r'.escaped = r.escaped

instance : Hushable Reading where
  isQuiet r := r.given.quiet
  Alike := Alike
  alike_self_iff r := by
    constructor
    · intro h
      exact (alike_self_iff r.given).mp h.given
    · intro hquiet
      exact ⟨rfl, (alike_self_iff r.given).mpr hquiet, .same _, rfl, rfl⟩

theorem Alike.refl (r : Reading) : Alike false r r := ⟨rfl, .refl r.given, .same _, rfl, rfl⟩

variable {hushed : Bool} {r r' : Reading}

/-- What a reading is given next is alike if it was alike before. -/
theorem follows_given (h : Alike hushed r r') {x x' : Except Stop Given}
    (hx : Follows hushed x x') :
    Follows hushed (do return { r with given := ← x }) (do return { r' with given := ← x' }) := by
  obtain ⟨level, given, pending, filled, escaped⟩ := r
  obtain ⟨level', given', pending', filled', escaped'⟩ := r'
  obtain ⟨rfl, -, hpending, rfl, rfl⟩ := h
  apply hx.bind
  · intro g g' _ hg
    exact .ok ⟨rfl, hg, hpending, rfl, rfl⟩
  · intro _ g hquiet
    exact .ok ⟨rfl, (alike_self_iff g).mpr hquiet, .same _, rfl, rfl⟩

theorem settle_follows (h : Alike hushed r r') : Follows hushed r.settle r'.settle := by
  have hnothing : Alike hushed { r with pending := .nothing } { r' with pending := .nothing } :=
    ⟨h.level, h.given, .same _, h.filled, h.escaped⟩
  have hpending := h.pending
  unfold settle
  generalize r.pending = p, r'.pending = p' at hpending
  cases hpending with
  | same =>
    cases p with
    | nothing => exact .ok h
    | option s value =>
      cases value with
      | none => exact .same .usage
      | some value => exact follows_given hnothing (Given.setValue_follows h.given s value)
    | words ws =>
      have hset : Follows hushed (r.given.setWords r.level ws) (r'.given.setWords r'.level ws) := by
        rw [h.level]
        exact Given.setWords_follows h.given r.level ws
      exact follows_given hnothing hset
  | format hformat f f' =>
    subst hformat
    exact follows_given hnothing (Given.setFormat_follows h.given f f')

/-- Whatever is pending in a reading, but the format, is pending in one that is alike. -/
theorem Alike.pending_eq_iff (h : Alike hushed r r') {p : Pending}
    (hp : ∀ value, p ≠ .option .output (some value)) : r'.pending = p ↔ r.pending = p := by
  have hpending := h.pending
  generalize r.pending = q, r'.pending = q' at hpending
  cases hpending with
  | same => exact Iff.rfl
  | format _ f f' => exact ⟨fun heq => absurd heq.symm (hp _), fun heq => absurd heq.symm (hp _)⟩

theorem Alike.expectsCommand (h : Alike hushed r r') : r'.expectsCommand = r.expectsCommand := by
  unfold Reading.expectsCommand
  have hpending := h.pending
  generalize r.pending = p, r'.pending = p' at hpending
  rw [h.level, h.escaped]
  cases hpending <;> rfl

section slots

variable {word : String} {ws : List String}

theorem takePlain_of_none (h : r.level.slots = .none) : r.takePlain word = .error .usage := by
  simp [takePlain, h]

theorem takePlain_of_one (h : r.level.slots = .one) :
    r.takePlain word = if r.filled then .error .usage
      else do return { ← r.settle with pending := .words [word], filled := true } := by
  simp [takePlain, h]

theorem takePlain_of_words (h : r.level.slots = .many) (hp : r.pending = .words ws) :
    r.takePlain word = .ok { r with pending := .words (ws ++ [word]) } := by
  simp [takePlain, h, hp]

theorem takePlain_of_not_words (h : r.level.slots = .many) (hp : ∀ ws, r.pending ≠ .words ws) :
    r.takePlain word = do return { ← r.settle with pending := .words [word] } := by
  unfold takePlain
  rw [h]
  cases hpending : r.pending with
  | words ws => exact absurd hpending (hp ws)
  | nothing | option _ _ => rfl

end slots

theorem takePlain_follows (h : Alike hushed r r') (word : String) :
    Follows hushed (r.takePlain word) (r'.takePlain word) := by
  have hsettle := settle_follows h
  cases hslots : r.level.slots with
  | none =>
    rw [takePlain_of_none hslots, takePlain_of_none (h.level ▸ hslots)]
    exact .same .usage
  | one =>
    rw [takePlain_of_one hslots, takePlain_of_one (h.level ▸ hslots), h.filled]
    split
    · exact .same .usage
    · apply hsettle.bind_step
      intro hushed a a' ha
      exact .ok ⟨ha.level, ha.given, .same _, rfl, ha.escaped⟩
  | many =>
    have hwords : ∀ ws, r'.pending = .words ws ↔ r.pending = .words ws :=
      fun ws => h.pending_eq_iff (by simp)
    by_cases hsome : ∃ ws, r.pending = .words ws
    · obtain ⟨ws, hws⟩ := hsome
      rw [takePlain_of_words hslots hws,
        takePlain_of_words (h.level ▸ hslots) ((hwords ws).mpr hws)]
      exact .ok ⟨h.level, h.given, .same _, h.filled, h.escaped⟩
    · have hnone : ∀ ws, r.pending ≠ .words ws := fun ws hws => hsome ⟨ws, hws⟩
      rw [takePlain_of_not_words hslots hnone,
        takePlain_of_not_words (h.level ▸ hslots) fun ws hws => hnone ws ((hwords ws).mp hws)]
      apply hsettle.bind_step
      intro hushed a a' ha
      exact .ok ⟨ha.level, ha.given, .same _, ha.filled, ha.escaped⟩

theorem takeValue_follows (h : Alike hushed r r') (s : Switch) (value : String) :
    Follows hushed (r.takeValue s value) (r'.takeValue s value) := by
  apply (settle_follows h).bind_step
  intro hushed a a' ha
  exact follows_given ha (Given.setValue_follows ha.given s value)

theorem takeFormat_follows (h : Alike false r r') (f f' : OutputFormat) :
    Follows false (r.takeValue .output f.name) (r'.takeValue .output f'.name) := by
  apply (settle_follows h).bind
  · intro a a' _ ha
    exact follows_given ha (Given.setFormat_follows ha.given f f')
  · exact fun hfalse => absurd hfalse (by decide)

theorem awaitValue_follows (h : Alike hushed r r') (s : Switch) :
    Follows hushed (r.awaitValue s) (r'.awaitValue s) := by
  apply (settle_follows h).bind_step
  intro hushed a a' ha
  exact .ok ⟨ha.level, ha.given, .same _, ha.filled, ha.escaped⟩

theorem takeFlag_follows (h : Alike hushed r r') (s : Switch) :
    Follows hushed (r.takeFlag s) (r'.takeFlag s) := by
  apply (settle_follows h).bind_step
  intro hushed a a' ha
  exact follows_given ha (Given.setFlag_follows ha.given s)

theorem takeLong_follows (h : Alike hushed r r') (name : String) (value : Option String) :
    Follows hushed (r.takeLong name value) (r'.takeLong name value) := by
  unfold takeLong
  rw [h.level]
  cases r.level.ofLong? name with
  | none => exact .same .usage
  | some s =>
    cases value with
    | none =>
      change Follows hushed (if s.takesValue then _ else _) (if s.takesValue then _ else _)
      split
      · exact awaitValue_follows h s
      · exact takeFlag_follows h s
    | some value =>
      change Follows hushed (if s.takesValue then _ else _) (if s.takesValue then _ else _)
      split
      · exact takeValue_follows h s value
      · exact .same .usage

section letters

variable {c : Char} {rest : List Char} {s : Switch}

theorem takeLetters_of_unknown (hc : r.level.ofLetter? c = none) :
    r.takeLetters (c :: rest) = .error .usage := by
  rw [takeLetters, hc]

/-- What follows a letter with a value is the value, perhaps after an equals sign. -/
theorem takeLetters_of_value (hc : r.level.ofLetter? c = some s) (hs : s.takesValue = true) :
    r.takeLetters (c :: rest) = if rest = [] then r.awaitValue s
      else r.takeValue s (String.ofList (if rest.head? = some '=' then rest.tail else rest)) := by
  rw [takeLetters, hc]
  simp only [hs, if_true]
  split
  · rfl
  · simp
  · rename_i hnil heq
    have hhead : rest.head? ≠ some '=' := by
      cases rest with
      | nil => exact absurd rfl hnil
      | cons d value =>
        intro hd
        obtain rfl : d = '=' := by simpa using hd
        exact heq value rfl
    rw [if_neg hnil, if_neg hhead]

theorem takeLetters_of_flag (hc : r.level.ofLetter? c = some s) (hs : s.takesValue = false) :
    r.takeLetters (c :: rest) = (r.takeFlag s >>= fun r => r.takeLetters rest) := by
  rw [takeLetters, hc]
  simp [hs]

end letters

theorem takeLetters_follows (h : Alike hushed r r') (cs : List Char) :
    Follows hushed (r.takeLetters cs) (r'.takeLetters cs) := by
  induction cs generalizing hushed r r' with
  | nil => exact .ok h
  | cons c rest ih =>
    cases hc : r.level.ofLetter? c with
    | none =>
      rw [takeLetters_of_unknown hc, takeLetters_of_unknown (h.level ▸ hc)]
      exact .same .usage
    | some s =>
      cases hs : s.takesValue with
      | true =>
        rw [takeLetters_of_value hc hs, takeLetters_of_value (h.level ▸ hc) hs]
        split
        · exact awaitValue_follows h s
        · exact takeValue_follows h s _
      | false =>
        rw [takeLetters_of_flag hc hs, takeLetters_of_flag (h.level ▸ hc) hs]
        exact (takeFlag_follows h s).bind_step fun _ _ _ ha => ih ha

section words

variable {word text : String} {s : Switch}

theorem take_of_escaped (h : r.escaped = true) : r.take word = r.takePlain word := by
  simp [take, h]

theorem take_of_escape (h : r.escaped = false) (hword : Word.of word = .escape) :
    r.take word = .ok { r with escaped := true } := by
  simp [take, h, hword]

theorem take_of_long {name : String} {value : Option String} (h : r.escaped = false)
    (hword : Word.of word = .long name value) : r.take word = r.takeLong name value := by
  simp [take, h, hword]

theorem take_of_letters {cs : List Char} (h : r.escaped = false)
    (hword : Word.of word = .letters cs) : r.take word = r.takeLetters cs := by
  simp [take, h, hword]

theorem take_of_awaited (h : r.escaped = false) (hword : Word.of word = .plain text)
    (hs : r.pending = .option s none) :
    r.take word = .ok { r with pending := .option s (some word) } := by
  unfold take
  rw [if_neg (by simp [h]), hword]
  simp only [hs]

theorem take_of_plain (h : r.escaped = false) (hword : Word.of word = .plain text)
    (hs : ∀ s, r.pending ≠ .option s none) : r.take word = r.takePlain word := by
  unfold take
  rw [if_neg (by simp [h]), hword]
  dsimp only
  split
  · rename_i s heq
    exact absurd heq (hs s)
  · rfl

end words

theorem take_follows (h : Alike hushed r r') (word : String) :
    Follows hushed (r.take word) (r'.take word) := by
  cases hescaped : r.escaped with
  | true =>
    rw [take_of_escaped hescaped, take_of_escaped (h.escaped.trans hescaped)]
    exact takePlain_follows h word
  | false =>
    have hescaped' : r'.escaped = false := h.escaped.trans hescaped
    cases hword : Word.of word with
    | escape =>
      rw [take_of_escape hescaped hword, take_of_escape hescaped' hword]
      exact .ok ⟨h.level, h.given, h.pending, h.filled, rfl⟩
    | long name value =>
      rw [take_of_long hescaped hword, take_of_long hescaped' hword]
      exact takeLong_follows h name value
    | letters cs =>
      rw [take_of_letters hescaped hword, take_of_letters hescaped' hword]
      exact takeLetters_follows h cs
    | plain text =>
      have hawaits : ∀ s, r'.pending = .option s none ↔ r.pending = .option s none :=
        fun s => h.pending_eq_iff (by simp)
      by_cases hsome : ∃ s, r.pending = .option s none
      · obtain ⟨s, hs⟩ := hsome
        rw [take_of_awaited hescaped hword hs,
          take_of_awaited hescaped' hword ((hawaits s).mpr hs)]
        exact .ok ⟨h.level, h.given, .same _, h.filled, h.escaped⟩
      · have hnone : ∀ s, r.pending ≠ .option s none := fun s hs => hsome ⟨s, hs⟩
        rw [take_of_plain hescaped hword hnone,
          take_of_plain hescaped' hword fun s hs => hnone s ((hawaits s).mp hs)]
        exact takePlain_follows h word

theorem areValid_eq (h : Alike hushed r r') (defaults : OptionVariables) :
    defaults.areValid r'.given = defaults.areValid r.given := by
  obtain ⟨output, hsome, -, hgiven⟩ := h.given
  rw [hgiven]
  simp [OptionVariables.areValid, hsome]

theorem finish_follows (h : Alike hushed r r') (defaults : OptionVariables) :
    Follows hushed (r.finish defaults) (r'.finish defaults) := by
  apply (settle_follows h).bind_step
  intro hushed a a' ha
  rw [areValid_eq ha]
  split
  · exact .ok ha.given
  · exact .same .usage

end Reading

instance : Hushable (Level × Given) where
  isQuiet p := p.2.quiet
  Alike hushed p p' := p'.1 = p.1 ∧ p.2.Alike hushed p'.2
  alike_self_iff p := by
    constructor
    · intro h
      exact (alike_self_iff p.2).mp h.2
    · intro hquiet
      exact ⟨rfl, (alike_self_iff p.2).mpr hquiet⟩

/-- What the levels below have differs in the format only, and not at all under a hushed level. -/
theorem Given.Alike.overlay {hushed : Bool} {g g' below below' : Given} (h : g.Alike hushed g')
    (hbelow : below.Alike false below') (hsame : hushed = true → below' = below) :
    (below.overlay g).Alike hushed (below'.overlay g') := by
  obtain ⟨output, hsome, hformat, rfl⟩ := h
  obtain ⟨outputBelow, hsomeBelow, -, rfl⟩ := hbelow
  refine ⟨outputBelow <|> output, ?_, ?_, ?_⟩
  · simp [Given.overlay, hsome, hsomeBelow]
  · intro hushed
    have heq : outputBelow = below.output := congrArg Given.output (hsame hushed)
    rw [heq, hformat hushed]
    rfl
  · simp [Given.overlay, Bool.or_assoc]

section levels

variable {hushed : Bool} {r r' : Reading} {defaults : OptionVariables} {word : String}
variable {rest rest' : List String}

/-- The steps of reading one more word: a command opens the level below. -/
theorem readLevel_of_command {child : Level} (h : r.expectsCommand = true) (hhelp : word ≠ "help")
    (hchild : r.level.command? word = some child) :
    readLevel defaults r (word :: rest) = (do
      let (lowest, below) ← readLevel defaults (.start child) rest
      let given ← r.finish defaults
      return (lowest, below.overlay given)) := by
  rw [readLevel]
  simp [h, hhelp, hchild]

theorem readLevel_of_help (h : r.expectsCommand = true) :
    readLevel defaults r ("help" :: rest) =
      .error (if leadsToHelp (some r.level) rest then .help else .usage) := by
  rw [readLevel]
  simp [h]

theorem readLevel_of_word (h : r.expectsCommand = true →
      word ≠ "help" ∧ r.level.command? word = none) :
    readLevel defaults r (word :: rest) =
      (r.take word >>= fun r => readLevel defaults r rest) := by
  rw [readLevel]
  cases hexpects : r.expectsCommand with
  | false => simp
  | true =>
    obtain ⟨hhelp, hcommand⟩ := h hexpects
    simp [hhelp, hcommand]

/-- What the next word can be to a level. -/
inductive Reading.Meets (r : Reading) (word : String) : Prop
  | command (child : Level) (h : r.expectsCommand = true) (hhelp : word ≠ "help")
      (hchild : r.level.command? word = some child)
  | help (h : r.expectsCommand = true) (hhelp : word = "help")
  | word (h : r.expectsCommand = true → word ≠ "help" ∧ r.level.command? word = none)

theorem Reading.meets (r : Reading) (word : String) : r.Meets word := by
  cases hexpects : r.expectsCommand with
  | false => exact .word fun htrue => absurd (hexpects.symm.trans htrue) (by decide)
  | true =>
    by_cases hhelp : word = "help"
    · exact .help hexpects hhelp
    · cases hchild : r.level.command? word with
      | none => exact .word fun _ => ⟨hhelp, hchild⟩
      | some child => exact .command child hexpects hhelp hchild

/-- One word, if what follows it is read alike. -/
theorem readLevel_cons_follows (h : Hushable.Alike hushed r r') (word : String)
    (hhelp : hushed = false → ∀ l, leadsToHelp l rest' = leadsToHelp l rest)
    (hchild : ∀ child, Follows false (readLevel defaults (.start child) rest)
      (readLevel defaults (.start child) rest'))
    (hsame : hushed = true → rest' = rest)
    (htake : ∀ a a', r.take word = .ok a → Hushable.Alike hushed a a' →
      Follows hushed (readLevel defaults a rest) (readLevel defaults a' rest'))
    (hself : hushed = true → ∀ a, isQuiet a = true →
      Follows true (readLevel defaults a rest) (readLevel defaults a rest)) :
    Follows hushed (readLevel defaults r (word :: rest))
      (readLevel defaults r' (word :: rest')) := by
  have hexpects' := h.expectsCommand
  cases r.meets word with
  | word hnot =>
    have hnot' : r'.expectsCommand = true → word ≠ "help" ∧ r'.level.command? word = none := by
      rw [hexpects', h.level]
      exact hnot
    rw [readLevel_of_word hnot, readLevel_of_word hnot']
    exact (Reading.take_follows h word).bind htake hself
  | help hexpects heq =>
    subst heq
    rw [readLevel_of_help hexpects, readLevel_of_help (hexpects'.trans hexpects), h.level]
    exact .stop fun hfalse => by rw [hhelp hfalse]
  | command child hexpects heq hcommand =>
    rw [readLevel_of_command hexpects heq hcommand,
      readLevel_of_command (hexpects'.trans hexpects) heq (h.level ▸ hcommand)]
    have hbelow := hchild child
    have hequal : hushed = true → readLevel defaults (.start child) rest' =
        readLevel defaults (.start child) rest := fun hushed => by rw [hsame hushed]
    generalize readLevel defaults (.start child) rest = x at hbelow hequal
    generalize readLevel defaults (.start child) rest' = x' at hbelow hequal
    cases hbelow with
    | stop hstop => exact .stop fun _ => hstop rfl
    | refused hfalse => exact absurd hfalse (by decide)
    | @ok p p' hp =>
      obtain ⟨lowest, below⟩ := p
      obtain ⟨lowest', below'⟩ := p'
      obtain ⟨rfl, hbelow⟩ := hp
      apply (Reading.finish_follows h defaults).bind
      · intro g g' _ hg
        refine .ok ⟨rfl, hg.overlay hbelow fun hushed => ?_⟩
        exact (Prod.mk.inj (Except.ok.inj (hequal hushed))).2
      · intro _ g hquiet
        have hg : g.Alike true g := (alike_self_iff g).mpr hquiet
        exact .ok ⟨rfl, hg.overlay (.refl below) fun _ => rfl⟩

/-- Readings that are alike lead to results that are alike by the same words. -/
theorem readLevel_follows (h : Hushable.Alike hushed r r') (words : List String) :
    Follows hushed (readLevel defaults r words) (readLevel defaults r' words) := by
  induction words generalizing hushed r r' with
  | nil =>
    rw [readLevel, readLevel, h.level]
    apply (Reading.finish_follows h defaults).bind_step
    intro hushed g g' hg
    split
    · exact .same .usage
    · exact .ok ⟨rfl, hg⟩
  | cons word rest ih =>
    apply readLevel_cons_follows h word
    · exact fun _ _ => rfl
    · exact fun child => ih (.refl (.start child))
    · exact fun _ => rfl
    · exact fun _ _ _ ha => ih ha
    · exact fun _ a ha => ih ((alike_self_iff a).mpr ha)

end levels

end TrafficWarden
