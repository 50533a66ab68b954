import TrafficWarden.Proofs.ScriptTokens

/-!
# Statements of a script

A script is read without a complaint. Each of its lines but comments and blank ones gives one
statement, and this is the assignment or the command of the line, whatever its words are.
-/

namespace TrafficWarden

open Shell

namespace Shell.Statement

/-- A word that begins no statement but a simple one. -/
def BeginsSimple (w : Word) : Prop := ∀ s, w = [.text s false] → s ∉ keywords

theorem beginsSimple_of_fixed {w : Word} {name : String} (h : w.fixed? = some name)
    (hname : name ∉ keywords) : BeginsSimple w := by
  rintro s rfl
  obtain ⟨s', quoted, t, hpiece, -, ht, rfl⟩ := fixed?_eq_some_cons h
  obtain ⟨rfl, -⟩ := Piece.text.inj hpiece
  rwa [← Option.some.inj ht, String.append_empty] at hname

theorem assignment?_eq_none {s : String} (h : '=' ∉ s.toList) (w : Word) :
    assignment? (.text s false :: w) = none := by
  unfold assignment?
  dsimp only
  split
  · rename_i hdrop
    exact absurd (List.mem_of_mem_drop (hdrop ▸ List.mem_cons_self)) h
  · rfl

theorem assignment?_of_fixed {w : Word} {t : String} (h : w.fixed? = some t) :
    assignment? w = none := by
  cases w with
  | nil => rfl
  | cons piece w =>
    obtain ⟨s, quoted, t', rfl, hs, -, -⟩ := fixed?_eq_some_cons h
    cases quoted with
    | true => rfl
    | false =>
      have hequals : '=' ∉ s.toList := fun hmem =>
        (hs.resolve_left Bool.false_ne_true) '=' hmem (by decide)
      exact assignment?_eq_none hequals w

theorem beginsSimple_of_assignment {w : Word} {a : String × Word} (h : assignment? w = some a) :
    BeginsSimple w := by
  have hall : keywords.all (fun s => !s.toList.contains '=') = true := by decide
  rintro s rfl hs
  have hequals : '=' ∉ s.toList := by simpa using List.all_eq_true.mp hall s hs
  rw [assignment?_eq_none hequals] at h
  exact absurd h (by simp)

section simple

variable {w : Word} {l : Nat} {rest after : List Token}

theorem readSimple_words (ws : List (Word × Nat)) {fuel : Nat} {ts : List Token}
    {words : List Word} {rs : List Redirect} (h : readSimple fuel ts = .ok ((words, rs), rest)) :
    readSimple (fuel + ws.length) (ws.map (fun w => .word w.1 w.2) ++ ts) =
      .ok ((ws.map Prod.fst ++ words, rs), rest) := by
  induction ws with
  | nil => exact h
  | cons w ws ih =>
    rw [List.map_cons, List.cons_append, List.length_cons, ← Nat.add_assoc, readSimple, ih]
    rfl

theorem readSimple_newline (n : Nat) (rest : List Token) :
    readSimple ((Token.newline n :: rest).length + 1) (.newline n :: rest) =
      .ok (([], []), .newline n :: rest) := rfl

theorem readSimple_tolerated (l m n : Nat) (nowhere : Word) (rest : List Token) :
    readSimple
      ((Token.redirect (some 2) ">" l :: .word nowhere m :: .mark "||" n :: rest).length + 1)
      (.redirect (some 2) ">" l :: .word nowhere m :: .mark "||" n :: rest) =
        .ok (([], [⟨2, .write, nowhere⟩]), .mark "||" n :: rest) := rfl

theorem readSimple_command (w : Word × Nat) (ws : List (Word × Nat)) {more : List Token}
    {rs : List Redirect} (h : readSimple (more.length + 1) more = .ok (([], rs), rest)) :
    readSimple ((ws.map (fun w => Token.word w.1 w.2) ++ more).length + 2)
      (.word w.1 w.2 :: (ws.map (fun w => .word w.1 w.2) ++ more)) =
        .ok (((w :: ws).map Prod.fst, rs), rest) := by
  have hfuel : (ws.map (fun w => Token.word w.1 w.2) ++ more).length + 2 =
      more.length + 1 + (w :: ws).length := by
    simp only [List.length_append, List.length_map, List.length_cons]
    omega
  have hwords := readSimple_words (w :: ws) h
  rw [List.append_nil] at hwords
  rw [hfuel]
  exact hwords

theorem bare?_eq_some {s : String} (h : bare? (.word w l) = some s) : w = [.text s false] := by
  unfold bare? at h
  split at h
  · rename_i heq
    rw [(Token.word.inj heq).1, Option.some.inj h]
  · exact absurd h (by simp)

theorem isWord_eq_false (hw : BeginsSimple w) {s : String} (hs : s ∈ keywords) :
    isWord s (.word w l) = false := by
  rw [isWord, beq_eq_false_iff_ne]
  exact fun h => hw s (bare?_eq_some h) hs

theorem any_bare?_eq_false (hw : BeginsSimple w) {names : List String} (hnames : names ⊆ keywords) :
    (bare? (.word w l)).any names.contains = false := by
  cases h : bare? (.word w l) with
  | none => rfl
  | some s =>
    have hs : s ∉ names := fun hs => hw s (bare?_eq_some h) (hnames hs)
    simpa using hs

theorem readCommand_simple (hw : BeginsSimple w) {words : List Word} {rs : List Redirect}
    (h : readSimple (rest.length + 2) (.word w l :: rest) = .ok ((words, rs), after))
    (hwords : words ≠ []) (fuel : Nat) :
    readCommand (fuel + 1) (.word w l :: rest) =
      .ok (.simple l (splitAssignments words).1 (splitAssignments words).2 rs, after) := by
  have hcompound : (bare? (.word w l)).filter ["if", "for", "while", "until", "\x7b"].contains =
      none := by
    have hany := any_bare?_eq_false (l := l) hw
      (by decide : ["if", "for", "while", "until", "\x7b"] ⊆ keywords)
    cases hbare : bare? (.word w l) with
    | none => rfl
    | some s =>
      rw [hbare] at hany
      simpa using hany
  have hkeyword := any_bare?_eq_false (l := l) hw (List.Subset.refl keywords)
  have hempty : words.isEmpty = false := by simpa using hwords
  have hmark : isMark "(" (.word w l) = false := rfl
  rw [readCommand]
  simp only [hmark, hcompound, hkeyword, h, hempty, Bool.false_eq_true, if_false, Bool.false_and,
    bind, Except.bind, pure, Except.pure]
  rfl

theorem readPipeline_simple (hw : BeginsSimple w) {words : List Word} {rs : List Redirect}
    (h : readSimple (rest.length + 2) (.word w l :: rest) = .ok ((words, rs), after))
    (hwords : words ≠ []) (hafter : ∀ n more, after ≠ .mark "|" n :: more) (fuel : Nat) :
    readPipeline (fuel + 2) (.word w l :: rest) =
      .ok (.simple l (splitAssignments words).1 (splitAssignments words).2 rs, after) := by
  rw [readPipeline, isWord_eq_false hw (by decide : "!" ∈ keywords), if_neg Bool.false_ne_true,
    readCommand_simple hw h hwords]
  -- the side condition of the other case is `hafter`
  simp only [bind, Except.bind]
  rfl

theorem readAndOrRest_newline (fuel n : Nat) (s : Statement) (rest : List Token) :
    readAndOrRest (fuel + 1) s (.newline n :: rest) = .ok (s, .newline n :: rest) := rfl

theorem readLine_newline {fuel : Nat} {ts : List Token} {s : Statement} {n : Nat}
    (h : readAndOr fuel ts = .ok (s, .newline n :: rest)) :
    readLine (fuel + 1) ts = .ok (s, rest) := by
  rw [readLine, h]
  rfl

theorem readAndOr_simple (hw : BeginsSimple w) {words : List Word} {rs : List Redirect}
    (h : readSimple (rest.length + 2) (.word w l :: rest) = .ok ((words, rs), after))
    (hwords : words ≠ []) (hafter : ∀ n more, after ≠ .mark "|" n :: more) (fuel : Nat) :
    readAndOr (fuel + 3) (.word w l :: rest) = readAndOrRest (fuel + 2)
      (.simple l (splitAssignments words).1 (splitAssignments words).2 rs) after := by
  rw [readAndOr, readPipeline_simple hw h hwords hafter]
  rfl

theorem readLine_simple (hw : BeginsSimple w) {words : List Word} {n : Nat}
    (h : readSimple (rest.length + 2) (.word w l :: rest) =
      .ok ((words, []), .newline n :: after)) (hwords : words ≠ []) (fuel : Nat) :
    readLine (fuel + 4) (.word w l :: rest) =
      .ok (.simple l (splitAssignments words).1 (splitAssignments words).2 [], after) := by
  have hafter : ∀ m more, Token.newline n :: after ≠ .mark "|" m :: more := by simp
  have hread := readAndOr_simple hw h hwords hafter fuel
  rw [readAndOrRest_newline] at hread
  exact readLine_newline hread

theorem readLine_either (hw : BeginsSimple w) {words : List Word} {rs : List Redirect} {n k m : Nat}
    {yes : Word} (hyes : BeginsSimple yes) (hplain : assignment? yes = none)
    (h : readSimple (rest.length + 2) (.word w l :: rest) =
      .ok ((words, rs), .mark "||" n :: .word yes k :: .newline m :: after)) (hwords : words ≠ [])
    (fuel : Nat) :
    readLine (fuel + 5) (.word w l :: rest) =
      .ok (.either (.simple l (splitAssignments words).1 (splitAssignments words).2 rs)
        (.simple k [] [yes] []), after) := by
  have hsecond : readPipeline (fuel + 2) (.word yes k :: .newline m :: after) =
      .ok (.simple k [] [yes] [], .newline m :: after) := by
    have hsimple : readSimple ((Token.newline m :: after).length + 2)
        (.word yes k :: .newline m :: after) = .ok (([yes], []), .newline m :: after) := rfl
    rw [readPipeline_simple hyes hsimple (List.cons_ne_nil _ _) (by simp), splitAssignments, hplain]
  have hafter : ∀ p more, Token.mark "||" n :: .word yes k :: .newline m :: after ≠
      .mark "|" p :: more := by simp
  have hread := readAndOr_simple hw h hwords hafter (fuel + 1)
  have hskip : skipNewlines (.word yes k :: .newline m :: after) =
      .word yes k :: .newline m :: after := rfl
  rw [readAndOrRest, hskip, hsecond] at hread
  exact readLine_newline hread

theorem splitAssignments_fixed {t : String} (hw : w.fixed? = some t) (words : List Word) :
    splitAssignments (w :: words) = ([], w :: words) := by
  rw [splitAssignments, assignment?_of_fixed hw]

end simple

end Shell.Statement

/-- A command is read as a statement of its words. One that may fail writes its complaints nowhere,
and a command that succeeds stands in for it. -/
inductive Command.Reads : Command → Statement → Prop
  | must {words : List ScriptWord} {ws : List Shell.Word}
    (h : List.Forall₂ ScriptWord.Reads words ws) (l : Nat) :
    Reads ⟨words, false⟩ (.simple l [] ws [])
  | may {words : List ScriptWord} {ws : List Shell.Word}
    (h : List.Forall₂ ScriptWord.Reads words ws) {nowhere yes : Shell.Word}
    (hnowhere : nowhere.fixed? = some "/dev/null") (hyes : yes.fixed? = some "true") (l m : Nat) :
    Reads ⟨words, true⟩ (.either (.simple l [] ws [⟨2, .write, nowhere⟩]) (.simple m [] [yes] []))

/-- A line is read as its assignment or its command. -/
inductive ScriptLine.Reads : ScriptLine → Statement → Prop
  | assign {name value : String} {v : Shell.Word} (hv : v.fixed? = some value) (l : Nat) :
    Reads (.assign name value) (.simple l [(name, v)] [] [])
  | command {line : ScriptLine} {c : Command} {st : Statement} (hc : line.command? = some c)
    (hst : c.Reads st) : Reads line st

open Statement

namespace Command

theorem Named.exists_words {words : List ScriptWord} {tolerated : Bool}
    (h : Named ⟨words, tolerated⟩) {ws : List (Shell.Word × Nat)}
    (hws : List.Forall₂ (fun word w => word.Reads w.1) words ws) :
    ∃ name w l ws', ws = (w, l) :: ws' ∧ w.fixed? = some name ∧ name ∉ keywords := by
  obtain ⟨name, words', rfl, hname⟩ := h
  obtain ⟨w, ws', hfirst, -, rfl⟩ := List.forall₂_cons_left_iff.mp hws
  exact ⟨name, w.1, w.2, ws', rfl, hfirst.2, hname⟩

theorem exists_readLine {c : Command} (hc : c.Named) {ts : List Token} (hts : c.Tokens ts)
    (n : Nat) (rest : List Token) :
    ∃ w l ts' st, ts = .word w l :: ts' ∧ c.Reads st ∧
      ∀ fuel, readLine (fuel + 5) (ts ++ .newline n :: rest) = .ok (st, rest) := by
  cases hts with
  | @must words ws hws =>
    obtain ⟨name, w, l, ws', rfl, hfixed, hname⟩ := hc.exists_words hws
    have hreads := (List.forall₂_map_right_iff (f := Prod.fst)).mpr hws
    refine ⟨w, l, _, _, rfl, .must hreads l, fun fuel => ?_⟩
    have hsimple := readSimple_command (w, l) ws' (readSimple_newline n rest)
    have hline := readLine_simple (beginsSimple_of_fixed hfixed hname) hsimple
      (List.cons_ne_nil _ _) (fuel + 1)
    rwa [List.map_cons, splitAssignments_fixed hfixed] at hline
  | @may words ws hws nowhere yes hnowhere hyes m k j i =>
    obtain ⟨name, w, l, ws', rfl, hfixed, hname⟩ := hc.exists_words hws
    have hreads := (List.forall₂_map_right_iff (f := Prod.fst)).mpr hws
    refine ⟨w, l, _, _, rfl, .may hreads hnowhere hyes l i, fun fuel => ?_⟩
    have hsimple := readSimple_command (w, l) ws'
      (readSimple_tolerated m k j nowhere (.word yes i :: .newline n :: rest))
    have hline := readLine_either (beginsSimple_of_fixed hfixed hname)
      (beginsSimple_of_fixed hyes (by decide)) (assignment?_of_fixed hyes) hsimple
      (List.cons_ne_nil _ _) fuel
    rw [List.map_cons, splitAssignments_fixed hfixed] at hline
    rw [List.append_assoc]
    exact hline

end Command

namespace ScriptLine

/-- A line that the shell passes over. -/
def isSilent : ScriptLine → Bool
  | .interpreter _ | .comment _ | .blank => true
  | _ => false

theorem command?_named {line : ScriptLine} (h : line.Readable) {c : Command}
    (hc : line.command? = some c) : line.isSilent = false ∧ c.Named := by
  cases line with
  | stopOnFault =>
    rw [← Option.some.inj hc]
    exact ⟨rfl, "set", [.literal "-e"], rfl, by decide⟩
  | run c' =>
    rw [← Option.some.inj hc]
    exact ⟨rfl, h⟩
  | _ => exact absurd hc (by simp [command?])

theorem exists_readLine {line : ScriptLine} (h : line.Readable) {ts : List Token}
    (hts : line.Tokens ts) (hline : line.isSilent = false) (n : Nat) (rest : List Token) :
    ∃ w l ts' st, ts = .word w l :: ts' ∧ line.Reads st ∧
      ∀ fuel, readLine (fuel + 5) (ts ++ .newline n :: rest) = .ok (st, rest) := by
  cases hts with
  | interpreter path => exact absurd hline (by simp [isSilent])
  | comment text => exact absurd hline (by simp [isSilent])
  | blank => exact absurd hline (by simp [isSilent])
  | @assign name value w v hw hv l =>
    refine ⟨w, l, [], _, rfl, .assign hv l, fun fuel => ?_⟩
    have hread : readLine (fuel + 5) (.word w l :: .newline n :: rest) = _ :=
      readLine_simple (beginsSimple_of_assignment hw) rfl (List.cons_ne_nil w []) (fuel + 1)
    rw [splitAssignments, hw] at hread
    exact hread
  | command hc hts =>
    obtain ⟨w, l, ts', st, hfirst, hst, hread⟩ :=
      Command.exists_readLine (command?_named h hc).2 hts n rest
    exact ⟨w, l, ts', st, hfirst, .command hc hst, hread⟩

theorem tokens_of_isSilent {line : ScriptLine} (h : line.Readable) {ts : List Token}
    (hts : line.Tokens ts) (hline : line.isSilent = true) : ts = [] := by
  cases hts with
  | assign hw hv l => exact absurd hline (by simp [isSilent])
  | command hc hts => exact absurd ((command?_named h hc).1.symm.trans hline) (by simp)
  | _ => rfl

end ScriptLine

namespace Script

/-- The lines of a script that the shell does not pass over. -/
def spoken (s : Script) : Script := s.filter fun line => !line.isSilent

theorem readLines_newline (fuel n : Nat) (ts : List Token) :
    readLines (fuel + 1) (.newline n :: ts) = readLines (fuel + 1) ts := rfl

theorem readLines_cons {w : Shell.Word} {l : Nat} {ts rest : List Token} {st : Statement}
    (h : ∀ fuel, readLine (fuel + 5) (.word w l :: ts) = .ok (st, rest)) (fuel : Nat) :
    readLines (fuel + 1) (.word w l :: ts) =
      (st :: (readLines fuel rest).1, (readLines fuel rest).2) := by
  have hfuel : 6 * (Token.word w l :: ts).length + 10 = 6 * (ts.length + 1) + 5 + 5 := rfl
  have hskip : skipNewlines (.word w l :: ts) = .word w l :: ts := rfl
  rw [readLines, hskip, hfuel, h]
  rfl

theorem exists_readLines {s : Script} (h : ∀ line ∈ s, line.Readable) {ts : List Token}
    (hts : s.Tokens ts) (n : Nat) {fuel : Nat} (hfuel : ts.length < fuel) :
    ∃ ss, readLines fuel (ts ++ [.finish n]) = (ss, none) ∧
      List.Forall₂ ScriptLine.Reads s.spoken ss := by
  induction hts generalizing fuel with
  | nil =>
    obtain ⟨fuel, rfl⟩ := Nat.exists_eq_add_one.mpr hfuel
    exact ⟨[], rfl, .nil⟩
  | @cons line s ts ts' hts m hts' ih =>
    rw [List.forall_mem_cons] at h
    obtain ⟨fuel, rfl⟩ := Nat.exists_eq_add_one.mpr (Nat.zero_lt_of_lt hfuel)
    have htail : ts'.length < fuel := by
      rw [List.length_append, List.length_cons] at hfuel
      omega
    rw [List.append_assoc, List.cons_append]
    cases hline : line.isSilent with
    | true =>
      -- only the break of the line is left, which takes no fuel
      obtain rfl := ScriptLine.tokens_of_isSilent h.1 hts hline
      obtain ⟨ss, hread, hreads⟩ := ih h.2 (Nat.lt_succ_of_lt htail)
      have hspoken : spoken (line :: s) = s.spoken := List.filter_cons_of_neg (by simp [hline])
      rw [hspoken, List.nil_append, readLines_newline]
      exact ⟨ss, hread, hreads⟩
    | false =>
      obtain ⟨w, l, tail, st, rfl, hst, hread⟩ :=
        ScriptLine.exists_readLine h.1 hts hline m (ts' ++ [.finish n])
      obtain ⟨ss, hrest, hreads⟩ := ih h.2 htail
      have hspoken : spoken (line :: s) = line :: s.spoken :=
        List.filter_cons_of_pos (by simp [hline])
      have hlines := readLines_cons hread fuel
      rw [hrest] at hlines
      exact ⟨st :: ss, hlines, hspoken ▸ .cons hst hreads⟩

/-- A script is read without a complaint, one statement for each of its lines. -/
theorem exists_statements {s : Script} (h : ∀ line ∈ s, line.Readable) :
    ∃ ss, statements s.text = (ss, none) ∧ List.Forall₂ ScriptLine.Reads s.spoken ss := by
  obtain ⟨ts, n, hts, htokens⟩ := exists_tokens h
  have hfuel : ts.length < (ts ++ [Token.finish n]).length + 1 := by
    rw [List.length_append]
    omega
  rw [statements, htokens]
  exact exists_readLines h hts n hfuel

end Script

end TrafficWarden
