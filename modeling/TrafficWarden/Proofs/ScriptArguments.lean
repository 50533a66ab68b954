import TrafficWarden.Proofs.ActiveViews
import TrafficWarden.Proofs.Classification
import TrafficWarden.Proofs.ScriptStatements

/-!
# Arguments that a script passes

The statements of the script of a plan set the interfaces to their names, and pass the words of each
rule to the packet filter as they are, whatever texts the plan holds.
-/

namespace TrafficWarden

open Shell

namespace Shell

/-- The text of a word that makes one argument and stands for itself. -/
def Word.argument? (w : Word) : Option String := if w.isEmpty then none else w.fixed?

namespace Statement

/-- The arguments of a simple statement, its name first, if all its words stand for themselves. -/
def arguments? : Statement → Option (List String)
  | .simple _ [] words [] => words.mapM Word.argument?
  | _ => none

/-- What a statement sets a variable to, if it does nothing else and the value stands for itself. -/
def assigned? : Statement → Option (String × String)
  | .simple _ [(name, w)] [] [] => w.fixed?.map (name, ·)
  | _ => none

/-- On every machine with enough fuel, a statement passes these arguments, and expanding its words
does nothing else. -/
def Passes (st : Statement) (arguments : List String) : Prop :=
  ∃ line words enough, st = .simple line [] words [] ∧
    ∀ fuel ≥ enough, ∀ m, Machine.expandAll fuel m words = (m, arguments)

/-- On every machine with enough fuel, a statement sets a variable and does nothing else. -/
def Assigns (st : Statement) (name value : String) : Prop :=
  ∃ enough, ∀ fuel ≥ enough, ∀ asked m, m.ending = none →
    Machine.run fuel asked m st = (m.assign name value).done

end Statement

theorem Word.argument?_eq_some {w : Word} {s : String} (h : w.argument? = some s) :
    w ≠ [] ∧ w.fixed? = some s := by
  rw [argument?, Option.ite_none_left_eq_some] at h
  exact ⟨by simpa using h.1, h.2⟩

theorem Word.argument?_of_fixed {w : Word} {s : String} (hw : w ≠ []) (h : w.fixed? = some s) :
    w.argument? = some s := by
  rw [argument?, if_neg (by simpa using hw), h]

theorem exists_expandAll {words : List Word} {arguments : List String}
    (h : words.mapM Word.argument? = some arguments) :
    ∃ enough, ∀ fuel ≥ enough, ∀ m, Machine.expandAll fuel m words = (m, arguments) := by
  induction words generalizing arguments with
  | nil =>
    refine ⟨1, fun fuel hfuel m => ?_⟩
    obtain ⟨fuel, rfl⟩ := Nat.exists_eq_add_one.mpr hfuel
    obtain rfl := Option.some.inj h
    rw [Machine.expandAll]
    rfl
  | cons w words ih =>
    rw [List.mapM_cons, Option.bind_eq_bind, Option.bind_eq_some_iff] at h
    obtain ⟨s, hs, h⟩ := h
    obtain ⟨rest, hrest, heq⟩ := Option.bind_eq_some_iff.mp h
    obtain ⟨hw, hfixed⟩ := Word.argument?_eq_some hs
    obtain ⟨enough, hall⟩ := ih hrest
    -- the first word is expanded with the same fuel as all words after it
    refine ⟨max enough (w.length + 1) + 1, fun fuel hfuel m => ?_⟩
    obtain ⟨fuel, rfl⟩ := Nat.exists_eq_add_one.mpr (Nat.zero_lt_of_lt hfuel)
    have hmax := Nat.max_le.mp (Nat.le_of_succ_le_succ hfuel)
    rw [Machine.expandAll, expand_of_fixed hfixed hw hmax.2, ← Option.some.inj heq]
    simp only [hall fuel hmax.1]
    rfl

theorem Statement.passes_of_arguments? {st : Statement} {arguments : List String}
    (h : st.arguments? = some arguments) : st.Passes arguments := by
  unfold arguments? at h
  split at h
  · obtain ⟨enough, hall⟩ := exists_expandAll h
    exact ⟨_, _, enough, rfl, hall⟩
  · exact absurd h (by simp)

theorem exists_expand_of_fixed {w : Word} {t : String} (h : w.fixed? = some t) {fuel : Nat}
    (hfuel : w.length < fuel) (m : Machine) :
    ∃ fields, Machine.expand fuel m w ([], none) = (m, fields) ∧ " ".intercalate fields = t := by
  by_cases hw : w = []
  · subst hw
    obtain ⟨fuel, rfl⟩ := Nat.exists_eq_add_one.mpr hfuel
    obtain rfl := Option.some.inj h
    refine ⟨[], ?_, rfl⟩
    rw [Machine.expand]
    rfl
  · exact ⟨[t], expand_of_fixed h hw hfuel m, rfl⟩

theorem checked_done (m : Machine) (asked : Bool) : m.done.checked asked = m.done := by
  simp [Machine.checked, Machine.done, Machine.withStatus]

theorem hasOutput_of_fixed {w : Word} {t : String} (h : w.fixed? = some t) (name : String) :
    Machine.hasOutput [(name, w)] = false := by
  rw [Machine.hasOutput, List.any_cons, List.any_nil, Bool.or_false]
  induction w generalizing t with
  | nil => rfl
  | cons piece w ih =>
    obtain ⟨s, quoted, t', rfl, -, hw, -⟩ := fixed?_eq_some_cons h
    exact ih hw

theorem Statement.assigns_of_assigned? {st : Statement} {name value : String}
    (h : st.assigned? = some (name, value)) : st.Assigns name value := by
  unfold assigned? at h
  split at h
  · rename_i line name' w
    obtain ⟨value', hfixed, heq⟩ := Option.map_eq_some_iff.mp h
    obtain ⟨rfl, rfl⟩ := Prod.mk.inj heq
    refine ⟨w.length + 4, fun fuel hfuel asked m hm => ?_⟩
    obtain ⟨fuel, rfl⟩ : ∃ k, fuel = k + 3 := ⟨fuel - 3, by omega⟩
    obtain ⟨fields, hexpand, hvalue⟩ :=
      exists_expand_of_fixed hfixed (by omega : w.length < fuel + 1) m
    have hassign : Machine.assignAll (fuel + 2) m [(name', w)] = m.assign name' value' := by
      simp only [Machine.assignAll, hexpand, hvalue]
    have hrestore : (m.assign name' value').restore m = m.assign name' value' := rfl
    rw [Machine.run]
    simp only [hm, Option.isSome_none, Bool.false_eq_true, if_false, Bool.not_true,
      Machine.expandAll, Machine.redirectAll, hassign, hasOutput_of_fixed hfixed, hrestore,
      checked_done]
  · exact absurd h (by simp)

end Shell

open Shell

namespace ScriptLine

/-- The arguments of the command of a line, if it has to succeed and names no interface. -/
def arguments? (line : ScriptLine) : Option (List String) := do
  let c ← line.command?
  if c.tolerated then none else Script.literalsOf c.words

def assigned? : ScriptLine → Option (String × String)
  | .assign name value => some (name, value)
  | _ => none

theorem arguments?_must (words : List ScriptWord) :
    (must words).arguments? = Script.literalsOf words := rfl

end ScriptLine

section reading

theorem argument?_of_reads {s : String} {w : Shell.Word} (h : ScriptWord.Reads (.literal s) w) :
    w.argument? = some s := Shell.Word.argument?_of_fixed h.1 h.2

theorem mapM_argument?_of_reads {words : List ScriptWord} {ws : List Shell.Word}
    (h : List.Forall₂ ScriptWord.Reads words ws) :
    ws.mapM Shell.Word.argument? = Script.literalsOf words := by
  induction h with
  | nil => rfl
  | @cons word w words ws hword hwords ih =>
    rw [List.mapM_cons, ih]
    cases word with
    | literal s =>
      rw [argument?_of_reads hword, Script.literalsOf]
      cases Script.literalsOf words <;> rfl
    | outside =>
      obtain rfl : w = quotedParameter "OUTSIDE" := hword
      rfl
    | inside =>
      obtain rfl : w = quotedParameter "INSIDE" := hword
      rfl

theorem ScriptLine.Reads.arguments?_eq {line : ScriptLine} {st : Statement} (h : line.Reads st) :
    st.arguments? = line.arguments? := by
  cases h with
  | assign hv l => rfl
  | command hc hst =>
    rw [ScriptLine.arguments?, hc]
    cases hst with
    | must hwords l => exact mapM_argument?_of_reads hwords
    | may hwords hnowhere hyes l m => rfl

theorem ScriptLine.Reads.assigned?_eq {line : ScriptLine} {st : Statement} (h : line.Reads st) :
    st.assigned? = line.assigned? := by
  cases h with
  | assign hv l => simp [Statement.assigned?, assigned?, hv]
  | command hc hst =>
    have hline : line.assigned? = none := by
      cases line with
      | assign name value => exact absurd hc (by simp [command?])
      | _ => rfl
    rw [hline]
    cases hst <;> rfl

theorem filterMap_eq_of_forall₂ {α β γ : Type} {R : α → β → Prop} {f : α → Option γ}
    {g : β → Option γ} (hR : ∀ a b, R a b → g b = f a) {as : List α} {bs : List β}
    (h : List.Forall₂ R as bs) : bs.filterMap g = as.filterMap f := by
  induction h with
  | nil => rfl
  | cons hab _ ih => rw [List.filterMap_cons, List.filterMap_cons, hR _ _ hab, ih]

end reading

namespace Script

/-- The commands of a script that have to succeed and name no interface, by their arguments. -/
def calls (s : Script) : List (List String) := s.filterMap ScriptLine.arguments?

def assignments (s : Script) : List (String × String) := s.filterMap ScriptLine.assigned?

/-- Whether a command appends a rule to a chain of the script. -/
def appendsRule : List String → Bool
  | "iptables" :: "-t" :: _ :: "-A" :: chain :: _ =>
    [uploadChain, downloadChain, blockChain].contains chain
  | _ => false

/-- The commands of a script that append a rule to one of its chains. -/
def ruleCalls (s : Script) : List (List String) := s.calls.filter appendsRule

/-- The command that a rule asks for. -/
def ruleCall (table chain : String) (target : List String) (r : Rule) : List String :=
  ["iptables", "-t", table, "-A", chain] ++ r.words ++ target

theorem filterMap_spoken {α : Type} {f : ScriptLine → Option α}
    (hf : ∀ line, line.isSilent = true → f line = none) (s : Script) :
    s.spoken.filterMap f = s.filterMap f := by
  rw [spoken, List.filterMap_filter]
  refine List.filterMap_congr fun line _ => ?_
  cases hline : line.isSilent with
  | true => exact (hf line hline).symm
  | false => rfl

theorem calls_spoken (s : Script) : s.spoken.calls = s.calls :=
  filterMap_spoken (fun line hline => by cases line <;> trivial) s

theorem assignments_spoken (s : Script) : s.spoken.assignments = s.assignments :=
  filterMap_spoken (fun line hline => by cases line <;> trivial) s

theorem ruleCalls_append (s t : Script) : (s ++ t).ruleCalls = s.ruleCalls ++ t.ruleCalls := by
  rw [ruleCalls, calls, List.filterMap_append, List.filter_append]
  rfl

theorem ruleCalls_header (p : Plan) : (header p).ruleCalls = [] := by
  have hcalls : (header p).calls = [["set", "-e"]] := rfl
  rw [ruleCalls, hcalls]
  decide

theorem ruleCalls_reset : reset.ruleCalls = [] := by decide

theorem ruleCalls_tc (words : List ScriptWord) (s : Script) :
    ruleCalls (.must (.literal "tc" :: words) :: s) = s.ruleCalls := by
  have hcalls : calls (.must (.literal "tc" :: words) :: s) =
      ((literalsOf words).map ("tc" :: ·)).toList ++ s.calls := by
    rw [calls, List.filterMap_cons, ScriptLine.arguments?_must, literalsOf]
    cases literalsOf words <;> rfl
  rw [ruleCalls, hcalls, List.filter_append]
  cases literalsOf words with
  | none => rfl
  | some arguments => simp [appendsRule, ruleCalls]

theorem ruleCalls_must {arguments : List String} (h : appendsRule arguments = true) (s : Script) :
    ruleCalls (.must (literals arguments) :: s) = arguments :: s.ruleCalls := by
  have hcalls : calls (.must (literals arguments) :: s) = arguments :: s.calls := by
    rw [calls, List.filterMap_cons, ScriptLine.arguments?_must, literalsOf_literals]
    rfl
  rw [ruleCalls, hcalls, List.filter_cons_of_pos h, ruleCalls]

theorem ruleCalls_rules {chain : String} (hchain : chain ∈ [uploadChain, downloadChain, blockChain])
    (table : String) (target : List String) (rules : List Rule) :
    ruleCalls (rules.map fun r => .must (literals (ruleCall table chain target r))) =
      rules.map (ruleCall table chain target) := by
  have happends : ∀ r, appendsRule (ruleCall table chain target r) = true := fun r => by
    simpa [ruleCall, appendsRule] using hchain
  induction rules with
  | nil => rfl
  | cons r rules ih => rw [List.map_cons, ruleCalls_must (happends r), ih, List.map_cons]

section policy

variable (place : Nat)

theorem ruleCalls_direction (device : ScriptWord) {chain : String}
    (hchain : chain ∈ [uploadChain, downloadChain, blockChain]) (cap : Option UInt32)
    (priority : Option Priority) (rules : List Rule) :
    ruleCalls (direction place device chain cap priority rules) =
      if cap.isSome || priority.isSome then
        rules.map (ruleCall "mangle" chain (markTarget place)) else [] := by
  rw [direction_eq]
  split
  · have hrules := ruleCalls_rules hchain "mangle" (markTarget place) rules
    have hlast : ruleCalls [.must (filterCommand place device)] = [] := ruleCalls_tc _ []
    unfold shaping
    rw [ruleCalls_append]
    exact (congrArg₂ (· ++ ·) ((ruleCalls_tc _ _).trans hrules) hlast).trans (List.append_nil _)
  · rfl

/-- The commands that the rules of a policy ask for at a place of the plan. -/
def ruleCallsOf (c : CompiledPolicy) : List (List String) :=
  if c.policy.isBlocking then c.rules.rules.map (ruleCall "filter" blockChain ["-j", "DROP"])
  else
    [Direction.upload, .download].flatMap fun d =>
      if d.shapes c.policy then
        (d.rules c.rules).map (ruleCall "mangle" d.chain (markTarget place))
      else []

theorem ruleCalls_policySection (c : CompiledPolicy) :
    (policySection place c).ruleCalls = ruleCallsOf place c := by
  have hcommands : (policySection place c).ruleCalls = (policyCommands place c).ruleCalls := rfl
  rw [hcommands, policyCommands, ruleCallsOf]
  split
  · exact ruleCalls_rules (by decide) "filter" ["-j", "DROP"] c.rules.rules
  · rw [ruleCalls_append, ruleCalls_direction _ _ (by decide), ruleCalls_direction _ _ (by decide)]
    simp [Direction.shapes, Direction.cap, Direction.rules, Direction.chain]

theorem ruleCalls_policySections (cs : List CompiledPolicy) :
    (policySections place cs).ruleCalls =
      (cs.zipIdx place).flatMap fun (c, n) => ruleCallsOf n c := by
  induction cs generalizing place with
  | nil => rfl
  | cons c cs ih =>
    rw [policySections, ruleCalls_append, ruleCalls_policySection, ih, List.zipIdx_cons,
      List.flatMap_cons]

end policy

theorem ruleCalls_ofPlan (p : Plan) :
    (ofPlan p).ruleCalls = (p.policies.zipIdx 1).flatMap fun (c, n) => ruleCallsOf n c := by
  rw [ofPlan, ruleCalls_append, ruleCalls_append, ruleCalls_header, ruleCalls_reset,
    ruleCalls_policySections]
  rfl

section readable

/-- A line that runs a program of the gateway. -/
def RunsProgram (line : ScriptLine) : Prop :=
  ∃ name words tolerated, name ∈ ["iptables", "tc"] ∧
    line = .run ⟨.literal name :: words, tolerated⟩

theorem RunsProgram.readable {line : ScriptLine} (h : RunsProgram line) : line.Readable := by
  obtain ⟨name, words, tolerated, hname, rfl⟩ := h
  refine ⟨name, words, rfl, ?_⟩
  have hall : ["iptables", "tc"].all (fun name => !Statement.keywords.contains name) = true := by
    decide
  simpa using List.all_eq_true.mp hall name hname

theorem runsProgram_shaping (place : Nat) (device : ScriptWord) (chain : String)
    (cap : Option UInt32) (priority : Option Priority) (rules : List Rule) :
    ∀ line ∈ shaping place device chain cap priority rules, RunsProgram line := by
  intro line hline
  unfold shaping at hline
  rcases List.mem_append.mp hline with hline | hline
  · rcases List.mem_cons.mp hline with rfl | hline
    · exact ⟨"tc", _, _, by decide, rfl⟩
    · obtain ⟨r, -, rfl⟩ := List.mem_map.mp hline
      exact ⟨"iptables", _, _, by decide, rfl⟩
  · rw [List.mem_singleton.mp hline]
    exact ⟨"tc", _, _, by decide, rfl⟩

theorem runsProgram_policyCommands (place : Nat) (c : CompiledPolicy) :
    ∀ line ∈ policyCommands place c, RunsProgram line := by
  intro line hline
  unfold policyCommands at hline
  split at hline
  · obtain ⟨r, -, rfl⟩ := List.mem_map.mp hline
    exact ⟨"iptables", _, _, by decide, rfl⟩
  · rw [direction_eq, direction_eq] at hline
    rcases List.mem_append.mp hline with hline | hline
    · split at hline
      · exact runsProgram_shaping _ _ _ _ _ _ line hline
      · exact absurd hline List.not_mem_nil
    · split at hline
      · exact runsProgram_shaping _ _ _ _ _ _ line hline
      · exact absurd hline List.not_mem_nil

theorem newline_not_mem_oneLine (name : String) : '\n' ∉ (oneLine name).toList := by
  rw [oneLine, String.toList_ofList]
  intro h
  obtain ⟨c, -, hc⟩ := List.mem_map.mp h
  split at hc
  · exact absurd hc (by decide)
  · rename_i hne
    exact hne (.inl hc)

theorem readable_header (p : Plan) : ∀ line ∈ header p, line.Readable := by
  have hmoment := p.moment.newline_not_mem_text
  have houtside : IsName "OUTSIDE".toList := by decide
  have hinside : IsName "INSIDE".toList := by decide
  have hcount : IsName "HIGH_PRIORITY_POLICIES".toList := by decide
  simp only [header, List.forall_mem_cons, List.not_mem_nil, false_implies, implies_true,
    ScriptLine.Readable, and_true, true_and]
  refine ⟨by decide, ?_, houtside, hinside, hcount⟩
  simp [hmoment]

theorem runsProgram_resetChain (table chain : String) (hook : List ScriptWord) :
    ∀ line ∈ resetChain table chain hook, RunsProgram line := by
  have hruns : ∀ words tolerated, RunsProgram (.run ⟨.literal "iptables" :: words, tolerated⟩) :=
    fun _ _ => ⟨"iptables", _, _, by decide, rfl⟩
  simp only [resetChain, List.forall_mem_cons, List.not_mem_nil, false_implies,
    implies_true, and_true]
  exact ⟨hruns _ true, hruns _ false, hruns _ true, hruns _ false⟩

theorem runsProgram_resetQueue (device : ScriptWord) :
    ∀ line ∈ resetQueue device, RunsProgram line := by
  have hruns : ∀ words tolerated, RunsProgram (.run ⟨.literal "tc" :: words, tolerated⟩) :=
    fun _ _ => ⟨"tc", _, _, by decide, rfl⟩
  simp only [resetQueue, List.forall_mem_cons, List.not_mem_nil, false_implies,
    implies_true, and_true]
  exact ⟨hruns _ true, hruns _ false⟩

theorem readable_reset : ∀ line ∈ reset, line.Readable := by
  have hchain : ∀ table chain hook, ∀ line ∈ resetChain table chain hook, line.Readable :=
    fun table chain hook line hline => (runsProgram_resetChain table chain hook line hline).readable
  have hqueue : ∀ device, ∀ line ∈ resetQueue device, line.Readable :=
    fun device line hline => (runsProgram_resetQueue device line hline).readable
  have hcomment : ∀ s : String, '\n' ∉ s.toList → (ScriptLine.comment s).Readable := fun _ h => h
  simp only [reset, List.cons_append, List.forall_mem_cons, List.forall_mem_append,
    List.not_mem_nil, false_implies, implies_true]
  exact ⟨hcomment _ (by decide), ⟨⟨⟨⟨hchain _ _ _, hchain _ _ _⟩, hchain _ _ _⟩, trivial,
    hcomment _ (by decide), trivial⟩, hqueue _⟩, hqueue _⟩

theorem readable_policySection (place : Nat) (c : CompiledPolicy) :
    ∀ line ∈ policySection place c, line.Readable := by
  have hplace : '\n' ∉ Nat.toDigits 10 place := fun h =>
    absurd (Nat.isDigit_of_mem_toDigits (by decide) (by decide) h) (by decide)
  have hid : '\n' ∉ c.policy.id.text.toList := c.policy.id.not_mem_text (by decide) (by decide)
  intro line hline
  rcases List.mem_append.mp hline with hline | hline
  · simp only [List.mem_cons, List.not_mem_nil, or_false] at hline
    rcases hline with rfl | rfl
    · trivial
    · simp [ScriptLine.Readable, newline_not_mem_oneLine, hplace, hid]
  · exact (runsProgram_policyCommands place c line hline).readable

theorem readable_policySections (place : Nat) (cs : List CompiledPolicy) :
    ∀ line ∈ policySections place cs, line.Readable := by
  induction cs generalizing place with
  | nil => exact fun _ hline => absurd hline List.not_mem_nil
  | cons c cs ih =>
    exact List.forall_mem_append.mpr ⟨readable_policySection place c, ih (place + 1)⟩

theorem readable_ofPlan (p : Plan) : ∀ line ∈ ofPlan p, line.Readable := by
  rw [ofPlan, List.forall_mem_append, List.forall_mem_append]
  exact ⟨⟨readable_header p, readable_reset⟩, readable_policySections 1 p.policies⟩

end readable

section assignments

theorem assignments_append (s t : Script) : (s ++ t).assignments = s.assignments ++ t.assignments :=
  List.filterMap_append

theorem assignments_policySections (place : Nat) (cs : List CompiledPolicy) :
    (policySections place cs).assignments = [] := by
  induction cs generalizing place with
  | nil => rfl
  | cons c cs ih =>
    have hcommands : (policyCommands place c).assignments = [] := by
      refine List.filterMap_eq_nil_iff.mpr fun line hline => ?_
      obtain ⟨name, words, tolerated, -, rfl⟩ := runsProgram_policyCommands place c line hline
      rfl
    rw [policySections, assignments_append, ih, policySection, assignments_append, hcommands]
    rfl

theorem assignments_ofPlan (p : Plan) :
    (ofPlan p).assignments = [("OUTSIDE", p.interfaces.outside), ("INSIDE", p.interfaces.inside),
      ("HIGH_PRIORITY_POLICIES", toString p.highPriorityCount)] := by
  have hreset : reset.assignments = [] := by decide
  rw [ofPlan, assignments_append, assignments_append, hreset, assignments_policySections]
  rfl

end assignments

/-- What the statements of the script of a plan convey: they are the lines that were written, set
the interfaces to their names, and pass each rule to the packet filter word by word. -/
structure Conveys (p : Plan) (ss : List Statement) : Prop where
  lines : List.Forall₂ ScriptLine.Reads (ofPlan p).spoken ss
  assigned : ss.filterMap Statement.assigned? =
    [("OUTSIDE", p.interfaces.outside), ("INSIDE", p.interfaces.inside),
      ("HIGH_PRIORITY_POLICIES", toString p.highPriorityCount)]
  assigns : ∀ st ∈ ss, ∀ name value, st.assigned? = some (name, value) → st.Assigns name value
  rules : (ss.filterMap Statement.arguments?).filter appendsRule =
    (p.policies.zipIdx 1).flatMap fun (c, n) => ruleCallsOf n c
  passes : ∀ st ∈ ss, ∀ arguments, st.arguments? = some arguments → st.Passes arguments

theorem exists_conveys (p : Plan) : ∃ ss, statements p.script = (ss, none) ∧ Conveys p ss := by
  obtain ⟨ss, hstatements, hreads⟩ := exists_statements (readable_ofPlan p)
  have hassigned : ss.filterMap Statement.assigned? = (ofPlan p).spoken.assignments :=
    filterMap_eq_of_forall₂ (fun _ _ h => h.assigned?_eq) hreads
  have hpassed : ss.filterMap Statement.arguments? = (ofPlan p).spoken.calls :=
    filterMap_eq_of_forall₂ (fun _ _ h => h.arguments?_eq) hreads
  refine ⟨ss, hstatements, hreads, ?_, ?_, ?_, ?_⟩
  · rw [hassigned, assignments_spoken, assignments_ofPlan]
  · exact fun _ _ _ _ => Statement.assigns_of_assigned?
  · rw [hpassed, calls_spoken, ← ruleCalls, ruleCalls_ofPlan]
  · exact fun _ _ _ => Statement.passes_of_arguments?

/-- A quoted text is one word that stands for the text and is not expanded. So the script of any
plan is read as it was written, whatever the texts in the plan are. -/
theorem quoting_faithful :
    (∀ s : String, Spells (quote s).toList s.toList ∧
      ∃ (w : Shell.Word) (line : Nat), tokens (quote s) = [.word w 1, .finish line] ∧
        w.fixed? = some s ∧
          ∀ fuel m, w.length < fuel → Machine.expand fuel m w ([], none) = (m, [s])) ∧
      ∀ p : Plan, ∃ ss, statements p.script = (ss, none) ∧ Conveys p ss := by
  refine ⟨fun s => ?_, exists_conveys⟩
  have hspells := spells_quoteChars s.toList
  obtain ⟨w, line, hw, hfixed, htokens⟩ := tokens_quote s
  have hexpand : ∀ fuel m, w.length < fuel → Machine.expand fuel m w ([], none) = (m, [s]) :=
    fun _ m hfuel => expand_of_fixed hfixed hw hfuel m
  rw [quote, String.toList_ofList]
  exact ⟨hspells, w, line, htokens, hfixed, hexpand⟩

end Script

end TrafficWarden
