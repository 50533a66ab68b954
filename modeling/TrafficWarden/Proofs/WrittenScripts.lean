import TrafficWarden.Proofs.ScriptArguments

/-!
# Scripts read from their text

The text of a script is read by the shell as statements, and these are taken as the lines of a
script again. Nothing but the text is looked at, and a statement that no line is written as makes
the reading fail. What a policy adds to a script is told by two texts: the one with the policies up
to it and the one with those before it.
-/

namespace TrafficWarden

open Shell

/-- The word of a script that a word of the shell is. -/
def ScriptWord.ofWord? (w : Shell.Word) : Option ScriptWord :=
  if w = quotedParameter "OUTSIDE" then some .outside
  else if w = quotedParameter "INSIDE" then some .inside
  else w.argument?.map .literal

/-- The line of a script that a statement is. A tolerated command writes its complaints nowhere, and
`true` stands in for it. -/
def ScriptLine.ofStatement? : Statement → Option ScriptLine
  | .simple _ [(name, w)] [] [] => w.fixed?.map (.assign name)
  | .simple _ [] words [] => (words.mapM ScriptWord.ofWord?).map fun words =>
    if words = Script.literals ["set", "-e"] then .stopOnFault else .must words
  | .either (.simple _ [] words [⟨2, .write, nowhere⟩]) (.simple _ [] [yes] []) =>
    if nowhere.fixed? = some "/dev/null" ∧ yes.fixed? = some "true" then
      (words.mapM ScriptWord.ofWord?).map .may
    else none
  | _ => none

/-- Reads a script from its text. -/
def Script.read? (source : String) : Option Script :=
  match statements source with
  | (ss, none) => ss.mapM ScriptLine.ofStatement?
  | _ => none

namespace ScriptWord

theorem ofWord?_of_reads {word : ScriptWord} {w : Shell.Word} (h : word.Reads w) :
    ofWord? w = some word := by
  cases word with
  | literal s =>
    -- a text that stands for itself has no parameter in it
    have hparameter : ∀ name, w ≠ quotedParameter name := by
      rintro name rfl
      exact absurd h.2 (by simp [quotedParameter, Shell.Word.fixed?, Piece.fixed?])
    rw [ofWord?, if_neg (hparameter _), if_neg (hparameter _), argument?_of_reads h]
    rfl
  | outside => exact if_pos h
  | inside =>
    obtain rfl : w = quotedParameter "INSIDE" := h
    rfl

theorem mapM_ofWord?_of_reads {words : List ScriptWord} {ws : List Shell.Word}
    (h : List.Forall₂ Reads words ws) : ws.mapM ofWord? = some words := by
  induction h with
  | nil => rfl
  | cons hword _ ih =>
    rw [List.mapM_cons, ofWord?_of_reads hword, ih]
    rfl

end ScriptWord

namespace ScriptLine

theorem ofStatement?_of_reads {line : ScriptLine} {st : Statement} (h : line.Reads st)
    (hline : ∀ c, line = .run c → c.words ≠ Script.literals ["set", "-e"]) :
    ofStatement? st = some line := by
  cases h with
  | assign hv l => rw [ofStatement?, hv, Option.map_some]
  | @command line c st hc hst =>
    cases line with
    | stopOnFault =>
      obtain rfl := Option.some.inj hc
      cases hst with
      | must hwords l =>
        rw [ofStatement?, ScriptWord.mapM_ofWord?_of_reads hwords, Option.map_some, if_pos rfl]
    | run c' =>
      obtain rfl := Option.some.inj hc
      cases hst with
      | must hwords l =>
        rw [ofStatement?, ScriptWord.mapM_ofWord?_of_reads hwords, Option.map_some,
          if_neg (hline _ rfl)]
        rfl
      | may hwords hnowhere hyes l m =>
        rw [ofStatement?, ScriptWord.mapM_ofWord?_of_reads hwords, if_pos ⟨hnowhere, hyes⟩]
        rfl
    | _ => exact absurd hc (by simp [command?])

theorem mapM_ofStatement?_of_reads {lines : Script} {ss : List Statement}
    (h : List.Forall₂ Reads lines ss)
    (hlines : ∀ c, .run c ∈ lines → c.words ≠ Script.literals ["set", "-e"]) :
    ss.mapM ofStatement? = some lines := by
  induction h with
  | nil => rfl
  | @cons line st lines ss hline _ ih =>
    rw [List.mapM_cons, ofStatement?_of_reads hline fun c hc => hlines c (hc ▸ List.mem_cons_self),
      ih fun c hc => hlines c (List.mem_cons_of_mem _ hc)]
    rfl

end ScriptLine

namespace Script

/-- A script is read from its text as its lines, but for those that the shell passes over. -/
theorem read?_text {s : Script} (h : ∀ line ∈ s, line.Readable)
    (hcommands : ∀ c, .run c ∈ s → c.words ≠ literals ["set", "-e"]) :
    read? s.text = some s.spoken := by
  obtain ⟨ss, hstatements, hreads⟩ := exists_statements h
  rw [read?, hstatements]
  exact ScriptLine.mapM_ofStatement?_of_reads hreads fun c hc =>
    hcommands c (List.mem_of_mem_filter hc)

theorem RunsProgram.words_ne {c : Command} (h : RunsProgram (.run c)) :
    c.words ≠ literals ["set", "-e"] := by
  obtain ⟨name, words, tolerated, hname, hc⟩ := h
  obtain rfl := ScriptLine.run.inj hc
  intro heq
  have hfirst : name = "set" := ScriptWord.literal.inj (List.cons.inj heq).1
  rw [hfirst] at hname
  exact absurd hname (by decide)

theorem runsProgram_of_mem_reset {c : Command} (h : .run c ∈ reset) : RunsProgram (.run c) := by
  simp only [reset, List.cons_append, List.mem_cons, List.mem_append, List.not_mem_nil,
    reduceCtorEq, false_or, or_false] at h
  rcases h with (((h | h) | h) | h) | h
  · exact runsProgram_resetChain _ _ _ _ h
  · exact runsProgram_resetChain _ _ _ _ h
  · exact runsProgram_resetChain _ _ _ _ h
  · exact runsProgram_resetQueue _ _ h
  · exact runsProgram_resetQueue _ _ h

theorem runsProgram_of_mem_policySections {place : Nat} {cs : List CompiledPolicy} {c : Command}
    (h : .run c ∈ policySections place cs) : RunsProgram (.run c) := by
  induction cs generalizing place with
  | nil => exact absurd h List.not_mem_nil
  | cons e cs ih =>
    rcases List.mem_append.mp h with h | h
    · simp only [policySection, List.cons_append, List.nil_append, List.mem_cons, reduceCtorEq,
        false_or] at h
      exact runsProgram_policyCommands place e _ h
    · exact ih h

theorem runsProgram_of_mem_ofPlan {p : Plan} {c : Command} (h : .run c ∈ ofPlan p) :
    RunsProgram (.run c) := by
  rw [ofPlan, List.mem_append, List.mem_append] at h
  rcases h with (h | h) | h
  · exact absurd h (by simp [header])
  · exact runsProgram_of_mem_reset h
  · exact runsProgram_of_mem_policySections h

theorem commands_spoken (s : Script) : s.spoken.commands = s.commands :=
  filterMap_spoken (fun line hline => by cases line <;> trivial) s

theorem spoken_append (s t : Script) : (s ++ t).spoken = s.spoken ++ t.spoken :=
  List.filter_append s t

/-- The lines of the policy at a place that the shell does not pass over are its commands. -/
theorem spoken_policySection (place : Nat) (c : CompiledPolicy) :
    (policySection place c).spoken = policyCommands place c := by
  have hcommands : (policySection place c).spoken = (policyCommands place c).spoken := rfl
  rw [hcommands, spoken, List.filter_eq_self]
  intro line hline
  obtain ⟨name, words, tolerated, -, rfl⟩ := runsProgram_policyCommands place c line hline
  rfl

end Script

namespace Plan

variable (p : Plan)

/-- The script of a plan as it is read from its text. -/
def written : Script := (Script.read? p.script).getD []

theorem read?_script_eq : Script.read? p.script = some (Script.ofPlan p).spoken :=
  Script.read?_text (Script.readable_ofPlan p) fun _ hc =>
    (Script.runsProgram_of_mem_ofPlan hc).words_ne

theorem written_eq : p.written = (Script.ofPlan p).spoken := by
  rw [written, read?_script_eq, Option.getD_some]

/-- The script of every plan can be read from its text. -/
theorem read?_script : Script.read? p.script = some p.written := by
  rw [written_eq, read?_script_eq]

theorem commands_written : p.written.commands = (Script.ofPlan p).commands := by
  rw [written_eq, Script.commands_spoken]

/-- The plan with its first policies alone. -/
def upTo (n : Nat) : Plan := { p with policies := p.policies.take n }

/-- What the policy at a place adds to the text of the script, read from the texts of the scripts
with and without it. -/
def added (place : Nat) : Script :=
  (p.upTo place).written.drop (p.upTo (place - 1)).written.length

theorem written_append (c : CompiledPolicy) :
    ∃ s, { p with policies := p.policies ++ [c] }.written =
      s ++ Script.policyCommands (p.policies.length + 1) c ∧ s.length = p.written.length := by
  rw [written_eq, written_eq, Script.ofPlan, Script.policySections_append, ← List.append_assoc,
    Script.spoken_append]
  have hsection : Script.policySections (1 + p.policies.length) [c] =
      Script.policySection (p.policies.length + 1) c := by
    rw [Script.policySections, Script.policySections, List.append_nil, Nat.add_comm]
  refine ⟨_, congrArg _ ((congrArg Script.spoken hsection).trans
    (Script.spoken_policySection ..)), ?_⟩
  -- the heads of the two scripts differ in the number of policies of high priority alone
  rw [Script.ofPlan, Script.spoken_append, Script.spoken_append, Script.spoken_append,
    Script.spoken_append]
  rfl

theorem upTo_append_cons {before after : List CompiledPolicy} {c : CompiledPolicy}
    (h : p.policies = before ++ c :: after) :
    p.upTo before.length = { p with policies := before } ∧
      p.upTo (before.length + 1) = { p with policies := before ++ [c] } := by
  constructor
  · rw [upTo, h, List.take_left']
    rfl
  · have hsplit : p.policies = (before ++ [c]) ++ after := by simp [h]
    rw [upTo, hsplit, List.take_left']
    simp

/-- The policy at a place adds its commands. -/
theorem added_of_append_cons {before after : List CompiledPolicy} {c : CompiledPolicy}
    (h : p.policies = before ++ c :: after) :
    p.added (before.length + 1) = Script.policyCommands (before.length + 1) c := by
  obtain ⟨hbefore, hupTo⟩ := p.upTo_append_cons h
  obtain ⟨s, hwritten, hlength⟩ := { p with policies := before }.written_append c
  rw [added, hupTo, Nat.add_sub_cancel, hbefore, hwritten, ← hlength, List.drop_left']
  rfl

/-- What a policy adds follows what those before it have added, and nothing of it is lost. -/
theorem exists_commands_written {before after : List CompiledPolicy} {c : CompiledPolicy}
    (h : p.policies = before ++ c :: after) :
    ∃ rest, p.written.commands =
      (p.upTo before.length).written.commands ++ (p.added (before.length + 1)).commands ++
        rest := by
  refine ⟨Script.commands (Script.policySections (1 + before.length + 1) after), ?_⟩
  rw [commands_written, commands_written, (p.upTo_append_cons h).1, p.added_of_append_cons h,
    Script.ofPlan, Script.ofPlan, h, Script.policySections_append, Script.policySections,
    Nat.add_comm 1 before.length]
  simp only [Script.commands_append, Script.commands_header, Script.commands_policySection,
    List.append_assoc]

theorem added_of_mem {c : CompiledPolicy} {place : Nat} (h : (c, place) ∈ p.policies.zipIdx 1) :
    p.added place = Script.policyCommands place c := by
  obtain ⟨hplace, hget⟩ := List.mk_mem_zipIdx_iff_le_and_getElem?_sub.mp h
  obtain ⟨hlt, hget⟩ := List.getElem?_eq_some_iff.mp hget
  have hsplit : p.policies =
      p.policies.take (place - 1) ++ c :: p.policies.drop (place - 1 + 1) := by
    rw [← hget, List.getElem_cons_drop, List.take_append_drop]
  have hlength : (p.policies.take (place - 1)).length + 1 = place := by
    rw [List.length_take]
    omega
  rw [← hlength]
  exact p.added_of_append_cons hsplit

end Plan

namespace Script

section classes

variable (s : Script) (table name : String) (device : ScriptWord)

theorem chain_spoken : s.spoken.chain table name = s.chain table name := by
  rw [chain, commands_spoken, chain]

theorem filters_spoken : s.spoken.filters device = s.filters device := by
  rw [filters, commands_spoken, filters]

theorem entered_spoken : s.spoken.entered table device = s.entered table device := by
  rw [entered, commands_spoken, entered]

theorem classOf_spoken (p : Packet) : s.spoken.classOf device name p = s.classOf device name p := by
  rw [classOf, filters_spoken, chain_spoken, classOf]

end classes

/-- In the script that is read from the text of a plan, forwarded packets enter the chain of their
direction, and leave it in the class `1:n` of the last policy that decides on them, where `n` is its
place in the plan, counted from 1; a packet that no policy decides on has no class. All of them
enter the blocking chain, which drops those that the bag of a blocking policy admits. -/
theorem classification (interfaces : Interfaces) (moment : Calendar.Timestamp)
    (entries : List (Policy × ParameterBag)) (p : Packet) :
    ∃ s, read? (Plan.script ⟨interfaces, moment, compiled entries⟩) = some s ∧
      (∀ d : Direction, s.entered "mangle" d.device = [d.chain] ∧
        (∀ c, s.classOf d.device d.chain p = some c ↔
          ∃ before e after, entries = before ++ e :: after ∧ d.Decides p e ∧
            (∀ a ∈ after, ¬ d.Decides p a) ∧ c = "1:" ++ hex (before.length + 1)) ∧
        (s.classOf d.device d.chain p = none ↔ ∀ e ∈ entries, ¬ d.Decides p e)) ∧
      (∀ device, s.entered "filter" device = [blockChain]) ∧
        (drops p (s.chain "filter" blockChain) = true ↔
          ∃ e ∈ entries, e.1.upload = none ∧ e.1.download = none ∧ e.1.priority = none ∧
            e.2.Admits p) := by
  refine ⟨_, Plan.read?_script_eq _, ?_⟩
  simp only [entered_spoken, classOf_spoken, chain_spoken]
  exact classification_ofEntries interfaces moment entries p

end Script

end TrafficWarden
