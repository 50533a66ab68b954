import TrafficWarden.Proofs.Freshness
import TrafficWarden.Proofs.ShellWords

/-!
# Tokens of a script

Each line of a script yields its own tokens, whatever its words are: a comment yields none, an
assignment one word, and a command one word for each of its own.
-/

namespace TrafficWarden

open Shell

namespace Shell

section beginnings

/-- A text that begins with a word: not with a blank, a mark, a comment or a redirection. -/
structure BeginsWord (cs : List Char) : Prop where
  head : ∃ c rest, cs = c :: rest ∧ c ∉ [' ', '\t', '\n', '#', '&', '|', ';', '(', ')'] ∧
    (c = '\\' → rest.head? ≠ some '\n')
  noRedirect : ∀ c ∈ (cs.dropWhile Text.isDigit).head?, c ≠ '<' ∧ c ≠ '>'

theorem readRedirect_eq_none {cs : List Char} (h : ∀ c ∈ cs.head?, c ≠ '<' ∧ c ≠ '>') :
    readRedirect cs = none := by
  unfold readRedirect
  split <;> simp at h ⊢

theorem readMark_eq_none {c : Char} (hc : c ∉ ['&', '|', ';', '(', ')']) (rest : List Char) :
    readMark (c :: rest) = none := by
  simp only [List.mem_cons, List.not_mem_nil, or_false, not_or] at hc
  unfold readMark
  split <;> simp_all

theorem drop_takeWhile_length (p : Char → Bool) (cs : List Char) :
    cs.drop (cs.takeWhile p).length = cs.dropWhile p := by
  conv => lhs; arg 2; rw [← List.takeWhile_append_dropWhile (p := p) (l := cs)]
  rw [List.drop_left]

theorem tokensFrom_of_readWord {raw rest : List Char} (hbegins : BeginsWord (raw ++ rest))
    {w : Word} (hread : readWord ((raw ++ rest).length + 1) (raw ++ rest) = .ok (w, rest))
    (fuel line : Nat) :
    tokensFrom (fuel + 1) line (raw ++ rest) =
      .word w line :: tokensFrom fuel (line + raw.count '\n') rest := by
  have hbreaks : (raw ++ rest).take ((raw ++ rest).length - rest.length) = raw := by
    simp
  obtain ⟨⟨c, tail, hcs, hc, hslash⟩, hredirect⟩ := hbegins
  have hmark : readMark (raw ++ rest) = none := by
    rw [hcs]
    exact readMark_eq_none (by simp_all) tail
  have hdigits := readRedirect_eq_none hredirect
  rw [← drop_takeWhile_length] at hdigits
  have hblank : (raw ++ rest).dropWhile isBlank = raw ++ rest := by
    rw [hcs]
    refine List.dropWhile_cons_of_neg ?_
    simp_all [isBlank]
  conv => lhs; unfold tokensFrom
  rw [hblank]
  split
  · rename_i hnil
    exact absurd (hcs.symm.trans hnil) (List.cons_ne_nil _ _)
  · rename_i hnewline
    rw [(List.cons.inj (hcs.symm.trans hnewline)).1] at hc
    exact absurd hc (by decide)
  · rename_i hescaped
    obtain ⟨rfl, rfl⟩ := List.cons.inj (hcs.symm.trans hescaped)
    exact absurd rfl (hslash rfl)
  · rename_i hcomment
    rw [(List.cons.inj (hcs.symm.trans hcomment)).1] at hc
    exact absurd hc (by decide)
  · simp only [hmark, hdigits, hread, hbreaks]

theorem noRedirect_of_spells {raw word : List Char} (h : Spells raw word) {rest : List Char}
    (hrest : Stops rest) :
    ∀ c ∈ ((raw ++ rest).dropWhile Text.isDigit).head?, c ≠ '<' ∧ c ≠ '>' := by
  induction h with
  | nil =>
    cases rest with
    | nil => exact fun c hc => absurd hc (by simp)
    | cons c rest => rcases hrest c rfl with rfl | rfl <;> simp [Text.isDigit]
  | @plain c raw word hc h ih =>
    cases hdigit : Text.isDigit c with
    | true => simpa [hdigit] using ih
    | false =>
      have hangle : c ∉ ['<', '>'] := not_mem_of_not_special hc (by decide)
      simpa [hdigit] using hangle
  | escaped hc h ih => simp [Text.isDigit]
  | quoted hinner h ih => simp [Text.isDigit]

theorem beginsWord_of_spells {raw word : List Char} (h : Spells raw word) (hraw : raw ≠ [])
    {rest : List Char} (hrest : Stops rest) : BeginsWord (raw ++ rest) := by
  -- a text that spells a word may begin with digits, but no redirection follows them
  refine ⟨?_, noRedirect_of_spells h hrest⟩
  cases h with
  | nil => exact absurd rfl hraw
  | @plain c raw word hc h =>
    refine ⟨c, raw ++ rest, rfl, not_mem_of_not_special hc (by decide), ?_⟩
    rintro rfl
    exact absurd (by decide) hc
  | @escaped c raw word hc h =>
    refine ⟨'\\', c :: raw ++ rest, rfl, by decide, fun _ hnewline => ?_⟩
    exact hc (Option.some.inj hnewline)
  | @quoted inner raw word hinner h =>
    exact ⟨'\'', inner ++ '\'' :: raw ++ rest, by simp, by decide,
      fun heq => absurd heq (by decide)⟩

theorem tokensFrom_nil (fuel line : Nat) : tokensFrom fuel line [] = [.finish line] := by
  cases fuel <;> rfl

theorem beginsWord_assignment {name : List Char} (h : IsName name) (cs : List Char) :
    BeginsWord (name ++ '=' :: cs) := by
  have hspecial : ∀ c ∈ name, c ∉ specialChars := fun c hc =>
    not_special_of_isNameChar (List.all_eq_true.mp h.2 c hc)
  constructor
  · obtain ⟨c, rest, rfl, -⟩ := h.exists_cons
    have hc := hspecial c List.mem_cons_self
    refine ⟨c, rest ++ '=' :: cs, rfl, not_mem_of_not_special hc (by decide), ?_⟩
    rintro rfl
    exact absurd (by decide) hc
  · clear h
    induction name with
    | nil => simp [Text.isDigit]
    | cons c name ih =>
      rw [List.forall_mem_cons] at hspecial
      cases hdigit : Text.isDigit c with
      | true => simpa [hdigit] using ih hspecial.2
      | false =>
        have hangle : c ∉ ['<', '>'] := not_mem_of_not_special hspecial.1 (by decide)
        simpa [hdigit] using hangle

end beginnings

/-- A text yields tokens before the rest of a script, which goes on in another line. The tokens take
no more steps than the text has characters. -/
def Yields (line : Nat) (cs rest : List Char) (ts : List Token) (next : Nat) : Prop :=
  ∃ steps ≤ cs.length, ∀ fuel,
    tokensFrom (fuel + steps) line (cs ++ rest) = ts ++ tokensFrom fuel next rest

namespace Yields

variable {line mid next : Nat} {cs cs' rest : List Char} {ts ts' : List Token}

theorem trans (h : Yields line cs (cs' ++ rest) ts mid) (h' : Yields mid cs' rest ts' next) :
    Yields line (cs ++ cs') rest (ts ++ ts') next := by
  obtain ⟨n, hn, hts⟩ := h
  obtain ⟨k, hk, hts'⟩ := h'
  refine ⟨k + n, by rw [List.length_append]; omega, fun fuel => ?_⟩
  rw [← Nat.add_assoc, List.append_assoc, hts, hts', List.append_assoc]

theorem nil (line : Nat) (rest : List Char) : Yields line [] rest [] line :=
  ⟨0, Nat.le_refl 0, fun _ => rfl⟩

theorem blank (h : Yields line cs rest ts next) : Yields line (' ' :: cs) rest ts next := by
  obtain ⟨n, hn, hts⟩ := h
  have hskip : ∀ fuel, tokensFrom fuel line (' ' :: (cs ++ rest)) =
      tokensFrom fuel line (cs ++ rest) := by
    intro fuel
    cases fuel with
    | zero => rfl
    | succ fuel =>
      have hdrop : (' ' :: (cs ++ rest)).dropWhile isBlank = (cs ++ rest).dropWhile isBlank :=
        List.dropWhile_cons_of_pos rfl
      unfold tokensFrom
      rw [hdrop]
  exact ⟨n, Nat.le_succ_of_le hn, fun fuel => (hskip _).trans (hts fuel)⟩

theorem newline (line : Nat) (rest : List Char) :
    Yields line ['\n'] rest [.newline (line + 1)] (line + 1) :=
  ⟨1, Nat.le_refl 1, fun _ => rfl⟩

theorem comment {cs : List Char} (h : '\n' ∉ cs) (line : Nat) (rest : List Char) :
    Yields line ('#' :: cs) ('\n' :: rest) [] line := by
  have hall : ∀ c ∈ cs, decide (c ≠ '\n') = true := fun c hc =>
    decide_eq_true fun heq => h (heq ▸ hc)
  have hdrop : (cs ++ '\n' :: rest).dropWhile (· ≠ '\n') = '\n' :: rest := by
    rw [List.dropWhile_append_of_pos hall, List.dropWhile_cons_of_neg (by decide)]
  refine ⟨1, by simp, fun fuel => ?_⟩
  have hstep : tokensFrom (fuel + 1) line ('#' :: (cs ++ '\n' :: rest)) =
      tokensFrom fuel line ((cs ++ '\n' :: rest).dropWhile (· ≠ '\n')) := rfl
  rw [List.cons_append, hstep, hdrop, List.nil_append]

theorem redirect (line : Nat) (rest : List Char) :
    Yields line ['2', '>'] ('/' :: rest) [.redirect (some 2) ">" line] line := by
  have htwo : (String.ofList ['2']).toNat? = some 2 := by
    simp [String.toNat?, String.Slice.toNat?, String.Slice.isNat]
  refine ⟨1, by decide, fun fuel => ?_⟩
  rw [← htwo]
  rfl

theorem either (line : Nat) (rest : List Char) :
    Yields line ['|', '|'] (' ' :: rest) [.mark "||" line] line :=
  ⟨1, by decide, fun _ => rfl⟩

theorem of_readWord {w : Word} (hcs : cs ≠ []) (hbegins : BeginsWord (cs ++ rest))
    (hread : readWord ((cs ++ rest).length + 1) (cs ++ rest) = .ok (w, rest)) (line : Nat) :
    Yields line cs rest [.word w line] (line + cs.count '\n') :=
  ⟨1, List.length_pos_iff.mpr hcs, fun fuel => tokensFrom_of_readWord hbegins hread fuel line⟩

theorem of_spells {raw word : List Char} (h : Spells raw word) (hraw : raw ≠ []) (line : Nat) :
    ∃ w : Word, w ≠ [] ∧ w.fixed? = some (String.ofList word) ∧ ∀ rest,
      Stops rest → Yields line raw rest [.word w line] (line + raw.count '\n') := by
  obtain ⟨w, hfixed, hw, hread⟩ := readWord_of_spells h
  refine ⟨w, hw hraw, hfixed, fun rest hrest => ?_⟩
  have hfuel : raw.length < (raw ++ rest).length + 1 := by
    rw [List.length_append]
    omega
  exact of_readWord hraw (beginsWord_of_spells h hraw hrest) (hread rest hrest _ hfuel) line

theorem quotedParameter {name : List Char} (h : IsName name) (line : Nat) :
    ∃ next, ∀ rest, Stops rest → Yields line ('"' :: '$' :: (name ++ ['"'])) rest
      [.word (Shell.quotedParameter (String.ofList name)) line] next := by
  refine ⟨line + ('"' :: '$' :: (name ++ ['"'])).count '\n', fun rest hrest => ?_⟩
  have hcs : '"' :: '$' :: (name ++ ['"']) ++ rest = '"' :: '$' :: (name ++ '"' :: rest) := by simp
  have hbegins : BeginsWord ('"' :: '$' :: (name ++ ['"']) ++ rest) := by
    refine ⟨⟨'"', _, rfl, by decide, fun heq => absurd heq (by decide)⟩, ?_⟩
    simp [Text.isDigit]
  refine of_readWord (List.cons_ne_nil _ _) hbegins ?_ line
  rw [hcs]
  exact readWord_quotedParameter h hrest _

theorem assignment {name raw value : List Char} (h : IsName name) (hraw : Spells raw value)
    (line : Nat) :
    ∃ w v next, Statement.assignment? w = some (String.ofList name, v) ∧
      v.fixed? = some (String.ofList value) ∧ ∀ rest, Stops rest →
        Yields line (name ++ '=' :: raw) rest [.word w line] next := by
  obtain ⟨w, v, hassignment, hv, hread⟩ := readWord_assignment h hraw
  refine ⟨w, v, line + (name ++ '=' :: raw).count '\n', hassignment, hv, fun rest hrest => ?_⟩
  have hcs : name ++ '=' :: raw ++ rest = name ++ '=' :: (raw ++ rest) := by simp
  have hfuel : name.length + raw.length + 1 < (name ++ '=' :: raw ++ rest).length + 1 := by
    simp only [List.length_append, List.length_cons]
    omega
  have hread := hread rest hrest _ hfuel
  rw [← hcs] at hread
  have hbegins : BeginsWord (name ++ '=' :: raw ++ rest) := by
    rw [hcs]
    exact beginsWord_assignment h (raw ++ rest)
  exact of_readWord (by simp) hbegins hread line

end Yields

theorem tokens_of_yields {source : String} {ts : List Token} {next : Nat}
    (h : Yields 1 source.toList [] ts next) : tokens source = ts ++ [.finish next] := by
  obtain ⟨n, hn, hts⟩ := h
  have hfuel : source.length + 1 = (source.length + 1 - n) + n := by
    rw [String.length_toList] at hn
    omega
  rw [List.append_nil] at hts
  rw [tokens, hfuel, hts, tokensFrom_nil]

theorem tokens_quote (s : String) :
    ∃ (w : Word) (line : Nat), w ≠ [] ∧ w.fixed? = some s ∧
      tokens (quote s) = [.word w 1, .finish line] := by
  have hstops : Stops [] := fun c hc => absurd hc (by simp)
  have hquote : (quote s).toList = quoteChars s.toList := String.toList_ofList
  obtain ⟨w, hw, hfixed, hyields⟩ := Yields.of_spells (spells_quoteChars s.toList)
    (quoteChars_ne_nil s.toList) 1
  rw [String.ofList_toList] at hfixed
  rw [← hquote] at hyields
  exact ⟨w, _, hw, hfixed, tokens_of_yields (hyields [] hstops)⟩

end Shell

/-- A word of a script is read as itself, or as the quoted value of an interface. -/
def ScriptWord.Reads : ScriptWord → Shell.Word → Prop
  | .literal s, w => w ≠ [] ∧ w.fixed? = some s
  | .outside, w => w = quotedParameter "OUTSIDE"
  | .inside, w => w = quotedParameter "INSIDE"

namespace ScriptWord

theorem exists_yields (word : ScriptWord) (line : Nat) :
    ∃ w next, word.Reads w ∧ ∀ rest, Stops rest →
      Yields line word.text.toList rest [.word w line] next := by
  cases word with
  | literal s =>
    obtain ⟨w, hw, hfixed, hyields⟩ := Yields.of_spells (spells_quoteChars s.toList)
      (quoteChars_ne_nil s.toList) line
    have htext : (literal s).text.toList = quoteChars s.toList := String.toList_ofList
    rw [String.ofList_toList] at hfixed
    rw [htext]
    exact ⟨w, _, ⟨hw, hfixed⟩, hyields⟩
  | outside =>
    have hname : IsName "OUTSIDE".toList := by decide
    obtain ⟨next, hyields⟩ := Yields.quotedParameter hname line
    exact ⟨_, next, rfl, hyields⟩
  | inside =>
    have hname : IsName "INSIDE".toList := by decide
    obtain ⟨next, hyields⟩ := Yields.quotedParameter hname line
    exact ⟨_, next, rfl, hyields⟩

end ScriptWord

/-- The tokens of a command: its words, and for a tolerated one what makes it so. -/
inductive Command.Tokens : Command → List Token → Prop
  | must {words : List ScriptWord} {ws : List (Shell.Word × Nat)}
    (h : List.Forall₂ (fun word w => word.Reads w.1) words ws) :
    Tokens ⟨words, false⟩ (ws.map fun w => .word w.1 w.2)
  | may {words : List ScriptWord} {ws : List (Shell.Word × Nat)}
    (h : List.Forall₂ (fun word w => word.Reads w.1) words ws) {nowhere yes : Shell.Word}
    (hnowhere : nowhere.fixed? = some "/dev/null") (hyes : yes.fixed? = some "true")
    (l m n k : Nat) : Tokens ⟨words, true⟩ (ws.map (fun w => .word w.1 w.2) ++
      [.redirect (some 2) ">" l, .word nowhere m, .mark "||" n, .word yes k])

namespace Command

theorem toList_words_cons (word : ScriptWord) {words : List ScriptWord} (hwords : words ≠ []) :
    (" ".intercalate ((word :: words).map ScriptWord.text)).toList =
      word.text.toList ++ ' ' :: (" ".intercalate (words.map ScriptWord.text)).toList := by
  have hmap : words.map ScriptWord.text ≠ [] := by simpa using hwords
  rw [List.map_cons, String.intercalate_cons_of_ne_nil hmap]
  simp

theorem exists_yields_words {words : List ScriptWord} (hwords : words ≠ []) (line : Nat) :
    ∃ (ws : List (Shell.Word × Nat)) (next : Nat),
      List.Forall₂ (fun word w => word.Reads w.1) words ws ∧ ∀ rest, Stops rest →
        Yields line (" ".intercalate (words.map ScriptWord.text)).toList rest
          (ws.map fun w => .word w.1 w.2) next := by
  induction words generalizing line with
  | nil => exact absurd rfl hwords
  | cons word words ih =>
    obtain ⟨w, mid, hreads, hfirst⟩ := word.exists_yields line
    by_cases hlast : words = []
    · subst hlast
      exact ⟨[(w, line)], mid, .cons hreads .nil, by simpa using hfirst⟩
    · obtain ⟨ws, next, hall, hyields⟩ := ih hlast mid
      refine ⟨(w, line) :: ws, next, .cons hreads hall, fun rest hrest => ?_⟩
      have hstops : Stops (' ' :: ((" ".intercalate (words.map ScriptWord.text)).toList ++ rest)) :=
        fun c hc => .inl (Option.some.inj hc).symm
      rw [toList_words_cons word hlast]
      exact (hfirst _ hstops).trans (hyields rest hrest).blank

theorem exists_yields_tolerated (line : Nat) :
    ∃ (nowhere yes : Shell.Word) (l m n k next : Nat), nowhere.fixed? = some "/dev/null" ∧
      yes.fixed? = some "true" ∧ ∀ rest, Stops rest →
        Yields line " 2>/dev/null || true".toList rest
          [.redirect (some 2) ">" l, .word nowhere m, .mark "||" n, .word yes k] next := by
  have hstops : ∀ more, Stops (' ' :: more) := fun _ c hc => .inl (Option.some.inj hc).symm
  have hspells : ∀ s : String, s.toList.all isSafe = true → Spells s.toList s.toList := fun s hs =>
    spells_of_all_isSafe (List.all_eq_true.mp hs)
  obtain ⟨nowhere, -, hnowhere, hfirst⟩ := Yields.of_spells (hspells "/dev/null" (by decide))
    (by decide) line
  obtain ⟨yes, -, hyes, hlast⟩ := Yields.of_spells (hspells "true" (by decide)) (by decide)
    (line + "/dev/null".toList.count '\n')
  have hredirect := fun rest => (Yields.redirect line ("dev/null || true".toList ++ rest)).blank
  have hmark := fun rest => (Yields.either (line + "/dev/null".toList.count '\n')
    ("true".toList ++ rest)).blank
  have hyields := fun rest (hrest : Stops rest) =>
    (hredirect rest).trans ((hfirst _ (hstops ("|| true".toList ++ rest))).trans
      ((hmark rest).trans (hlast rest hrest).blank))
  exact ⟨nowhere, yes, _, _, _, _, _, hnowhere, hyes, hyields⟩

theorem exists_yields {c : Command} (hwords : c.words ≠ []) (line : Nat) :
    ∃ ts next, c.Tokens ts ∧ ∀ rest, Stops rest →
      Yields line c.text.toList rest ts next := by
  obtain ⟨words, tolerated⟩ := c
  obtain ⟨ws, mid, hall, hyields⟩ := exists_yields_words hwords line
  cases tolerated with
  | false =>
    refine ⟨_, mid, .must hall, fun rest hrest => ?_⟩
    simpa [text] using hyields rest hrest
  | true =>
    obtain ⟨nowhere, yes, l, m, n, k, next, hnowhere, hyes, htail⟩ := exists_yields_tolerated mid
    refine ⟨_, next, .may hall hnowhere hyes l m n k, fun rest hrest => ?_⟩
    have hstops : Stops (" 2>/dev/null || true".toList ++ rest) := fun c hc =>
      .inl (Option.some.inj hc).symm
    rw [text, if_pos rfl, String.toList_append]
    exact (hyields _ hstops).trans (htail rest hrest)

end Command

/-- The first word of a command is its name, and no word of the shell. -/
def Command.Named (c : Command) : Prop :=
  ∃ name words, c.words = .literal name :: words ∧ name ∉ Statement.keywords

namespace ScriptLine

def command? : ScriptLine → Option Command
  | .stopOnFault => some ⟨Script.literals ["set", "-e"], false⟩
  | .run c => some c
  | _ => none

/-- A line can be told from its neighbours: it is one line if it is no command, it assigns to a
name, and the first word of its command is no word of the shell. -/
def Readable : ScriptLine → Prop
  | .interpreter path => '\n' ∉ path.toList
  | .comment text => '\n' ∉ text.toList
  | .stopOnFault => True
  | .blank => True
  | .assign name _ => IsName name.toList
  | .run c => c.Named

/-- The tokens of a line, without the break after it. -/
inductive Tokens : ScriptLine → List Token → Prop
  | interpreter (path : String) : Tokens (.interpreter path) []
  | comment (text : String) : Tokens (.comment text) []
  | blank : Tokens .blank []
  | assign {name value : String} {w v : Shell.Word} (hw : Statement.assignment? w = some (name, v))
    (hv : v.fixed? = some value) (l : Nat) : Tokens (.assign name value) [.word w l]
  | command {line : ScriptLine} {c : Command} {ts : List Token} (hc : line.command? = some c)
    (hts : c.Tokens ts) : Tokens line ts

theorem exists_yields {line : ScriptLine} (h : line.Readable) (n : Nat) :
    ∃ ts next, line.Tokens ts ∧ ∀ rest, Yields n line.text.toList ('\n' :: rest) ts next := by
  have hstops : ∀ rest, Stops ('\n' :: rest) := fun _ c hc => .inr (Option.some.inj hc).symm
  cases line with
  | interpreter path =>
    refine ⟨[], n, .interpreter path, fun rest => ?_⟩
    have hpath : '\n' ∉ '!' :: path.toList := by simpa [Readable] using h
    simpa [text] using Yields.comment hpath n rest
  | comment s =>
    refine ⟨[], n, .comment s, fun rest => ?_⟩
    have hs : '\n' ∉ ' ' :: s.toList := by simpa [Readable] using h
    simpa [text] using Yields.comment hs n rest
  | stopOnFault =>
    have hwords : Script.literals ["set", "-e"] ≠ [] := by decide
    obtain ⟨ts, next, hts, hyields⟩ : ∃ ts next,
        Command.Tokens ⟨Script.literals ["set", "-e"], false⟩ ts ∧ ∀ rest,
          Stops rest → Yields n "set -e".toList rest ts next :=
      Command.exists_yields hwords n
    exact ⟨ts, next, .command rfl hts, fun rest => hyields _ (hstops rest)⟩
  | blank => exact ⟨[], n, .blank, fun _ => .nil n _⟩
  | assign name value =>
    obtain ⟨w, v, next, hw, hv, hyields⟩ := Yields.assignment h (spells_quoteChars value.toList) n
    rw [String.ofList_toList] at hw hv
    refine ⟨_, next, .assign hw hv n, fun rest => ?_⟩
    simpa [text, quote] using hyields _ (hstops rest)
  | run c =>
    obtain ⟨name, words, hc, -⟩ := h
    have hwords : c.words ≠ [] := by simp [hc]
    obtain ⟨ts, next, hts, hyields⟩ := Command.exists_yields hwords n
    exact ⟨ts, next, .command rfl hts, fun rest => hyields _ (hstops rest)⟩

end ScriptLine

namespace Script

/-- The tokens of a script, each line with the break after it. -/
inductive Tokens : Script → List Token → Prop
  | nil : Tokens [] []
  | cons {line : ScriptLine} {s : Script} {ts ts' : List Token} (hts : line.Tokens ts) (n : Nat)
    (hts' : Tokens s ts') : Tokens (line :: s) (ts ++ .newline n :: ts')

theorem yields_cons {line : ScriptLine} {s : Script} {ts ts' : List Token} {n mid next : Nat}
    (hline : ∀ rest, Yields n line.text.toList ('\n' :: rest) ts mid)
    (hrest : Yields (mid + 1) s.text.toList [] ts' next) :
    Yields n (text (line :: s)).toList [] (ts ++ .newline (mid + 1) :: ts') next := by
  have htext : (text (line :: s)).toList = line.text.toList ++ (['\n'] ++ (text s).toList) := by
    simp [text_cons]
  rw [htext]
  exact (hline _).trans ((Yields.newline mid _).trans hrest)

theorem exists_yields {s : Script} (h : ∀ line ∈ s, line.Readable) (n : Nat) :
    ∃ ts next, s.Tokens ts ∧ Yields n s.text.toList [] ts next := by
  induction s generalizing n with
  | nil => exact ⟨[], n, .nil, .nil n []⟩
  | cons line s ih =>
    rw [List.forall_mem_cons] at h
    obtain ⟨ts, mid, hts, hline⟩ := ScriptLine.exists_yields h.1 n
    obtain ⟨ts', next, hts', hrest⟩ := ih h.2 (mid + 1)
    exact ⟨_, next, .cons hts (mid + 1) hts', yields_cons hline hrest⟩

theorem exists_tokens {s : Script} (h : ∀ line ∈ s, line.Readable) :
    ∃ ts next, s.Tokens ts ∧ tokens s.text = ts ++ [.finish next] := by
  obtain ⟨ts, next, hts, hyields⟩ := exists_yields h 1
  exact ⟨ts, next, hts, tokens_of_yields hyields⟩

end Script

end TrafficWarden
