import TrafficWarden.Proofs.ScriptReading

/-!
# The class of a packet under a script

A packet that leaves by a device runs through the chain of its direction, where every rule that
matches sets the mark anew, and the filters of the device turn the mark into a class. So the last
policy of the plan that shapes the direction and admits the packet decides.
-/

namespace TrafficWarden

/-- The two directions of traffic through the gateway. -/
inductive Direction where
  | upload
  | download
deriving DecidableEq, Repr

namespace Direction

/-- The device by which the traffic leaves. -/
def device : Direction → ScriptWord
  | .upload => .outside
  | .download => .inside

def chain : Direction → String
  | .upload => Script.uploadChain
  | .download => Script.downloadChain

def cap : Direction → Policy → Option UInt32
  | .upload, policy => policy.upload
  | .download, policy => policy.download

/-- A policy shapes a direction if it has a cap for it or a priority. -/
def shapes (d : Direction) (policy : Policy) : Bool :=
  (d.cap policy).isSome || policy.priority.isSome

/-- The packet as the bags of policies describe it: a bag is about the outgoing direction. -/
def seen : Direction → Packet → Packet
  | .upload, p => p
  | .download, p => p.reversed

/-- An entry of a plan decides on a packet if its policy shapes the direction and its bag admits the
packet. -/
def Decides (d : Direction) (p : Packet) (e : Policy × ParameterBag) : Prop :=
  d.shapes e.1 = true ∧ e.2.Admits (d.seen p)

def rules : Direction → RuleSet → List Rule
  | .upload, s => s.upload
  | .download, s => s.download

theorem exists_rules_accepts (d : Direction) (policy : Policy) (bag : ParameterBag) (p : Packet) :
    (∃ r ∈ d.rules (CompiledPolicy.compile policy bag).rules, r.accepts p = true) ↔
      bag.Admits (d.seen p) := by
  cases d with
  | upload => simp [rules, seen, CompiledPolicy.compile, bag.exists_forwardRules_accepts]
  | download =>
    rw [rules, CompiledPolicy.compile, RuleSet.download_compile, seen,
      ← bag.exists_forwardRules_accepts]
    simp

theorem carries_rules (d : Direction) {s : RuleSet} (h : ∀ r ∈ s.rules, r.Every Flag.Carries) :
    ∀ r ∈ d.rules s, r.Every Flag.Carries := by
  cases d with
  | upload => exact RuleSet.forall_mem_upload h
  | download =>
    exact RuleSet.forall_mem_download h fun _ hr => hr.reversed fun _ _ => Flag.Carries.swapped

end Direction

theorem RuleSet.carries_compile (bag : ParameterBag) (priority : Option Priority)
    (download : Option UInt32) : ∀ r ∈ (compile bag priority download).rules, r.Every Flag.Carries :=
  forall_mem_compile priority download bag.carries_forwardRules fun _ hr =>
    hr.reversed fun _ _ => Flag.Carries.swapped

@[simp] theorem CompiledPolicy.policy_compile (policy : Policy) (bag : ParameterBag) :
    (compile policy bag).policy = policy := rfl

/-- A blocking policy has the rules of its bag and no reversed ones. -/
theorem CompiledPolicy.rules_compile_of_isBlocking {policy : Policy} (bag : ParameterBag)
    (h : policy.isBlocking = true) : (compile policy bag).rules.rules = bag.forwardRules := by
  simp only [Policy.isBlocking, Bool.and_eq_true, Option.isNone_iff_eq_none] at h
  obtain ⟨⟨-, hdown⟩, hprio⟩ := h
  simp [compile, RuleSet.compile, hdown, hprio]

namespace Script

/-- The mark of a packet after a chain: every rule that matches sets it anew. -/
def markAfter (p : Packet) (rules : List ChainRule) (mark : Nat) : Nat :=
  rules.foldl (fun mark r => match r.verdict with
    | .mark n => if r.accepts p then n else mark
    | .drop => mark) mark

/-- Whether a chain drops a packet. -/
def drops (p : Packet) (rules : List ChainRule) : Bool :=
  rules.any fun r => r.verdict = .drop && r.accepts p

/-- The class of a packet that has no mark at first, after a chain and under the filters of a
device. -/
def classOf (s : Script) (device : ScriptWord) (name : String) (p : Packet) : Option String :=
  ((s.filters device).find? (·.mark = markAfter p (s.chain "mangle" name) 0)).map (·.flow)

theorem drops_append (p : Packet) (rules more : List ChainRule) :
    drops p (rules ++ more) = (drops p rules || drops p more) := List.any_append

theorem markAfter_append (p : Packet) (rules more : List ChainRule) (mark : Nat) :
    markAfter p (rules ++ more) mark = markAfter p more (markAfter p rules mark) :=
  List.foldl_append

open Classical in
theorem markAfter_map (p : Packet) (rules : List Rule) (n mark : Nat) :
    markAfter p (rules.map fun r => ⟨r.toList, .mark n⟩) mark =
      if ∃ r ∈ rules, r.accepts p = true then n else mark := by
  induction rules generalizing mark with
  | nil => simp [markAfter]
  | cons r rules ih =>
    have hcons : markAfter p ((r :: rules).map fun r => ⟨r.toList, .mark n⟩) mark =
        markAfter p (rules.map fun r => ⟨r.toList, .mark n⟩) (if r.accepts p then n else mark) := rfl
    rw [hcons, ih]
    by_cases hr : r.accepts p = true
    · simp [hr]
    · simp [hr]

theorem drops_map (p : Packet) (rules : List Rule) :
    drops p (rules.map fun r => ⟨r.toList, .drop⟩) = true ↔ ∃ r ∈ rules, r.accepts p = true := by
  simp [drops, ChainRule.accepts, Rule.accepts]

section direction

variable (place : Nat) (device : ScriptWord) (name : String) (cap : Option UInt32)
  (priority : Option Priority)

theorem direction_eq (rules : List Rule) :
    direction place device name cap priority rules =
      if cap.isSome || priority.isSome then
        shaping place device name cap priority rules else [] := by
  unfold direction
  cases cap <;> cases priority <;> rfl

theorem chain_direction {rules : List Rule} (hrules : ∀ r ∈ rules, r.Every Flag.Carries)
    (other : String) :
    chain (direction place device name cap priority rules) "mangle" other =
      if (cap.isSome || priority.isSome) = true ∧ name = other then
        rules.map fun r => ⟨r.toList, .mark place⟩ else [] := by
  rw [direction_eq]
  split
  · rename_i h
    simp [chain_shaping _ _ _ _ _ hrules, h]
  · rename_i h
    rw [if_neg fun hboth => h hboth.1]
    rfl

theorem chain_filter_direction {rules : List Rule} (hrules : ∀ r ∈ rules, r.Every Flag.Carries)
    (other : String) :
    chain (direction place device name cap priority rules) "filter" other = [] := by
  rw [direction_eq]
  split
  · simp [chain_shaping _ _ _ _ _ hrules]
  · rfl

theorem filters_direction (rules : List Rule) (other : ScriptWord) :
    filters (direction place device name cap priority rules) other =
      if (cap.isSome || priority.isSome) = true ∧ device = other then
        [⟨place, "1:" ++ hex place⟩] else [] := by
  rw [direction_eq]
  split
  · rename_i h
    simp [filters_shaping, h]
  · rename_i h
    rw [if_neg fun hboth => h hboth.1]
    rfl

theorem entered_direction (hname : name ≠ "FORWARD") (rules : List Rule) (table : String)
    (other : ScriptWord) :
    entered (direction place device name cap priority rules) table other = [] := by
  rw [direction_eq]
  split
  · exact entered_shaping _ _ _ _ _ hname _ _ _
  · rfl

end direction

section policy

variable (place : Nat) (d : Direction) {c : CompiledPolicy}

theorem not_shapes_of_isBlocking {policy : Policy} (h : policy.isBlocking = true) :
    ¬ d.shapes policy = true := by
  simp only [Policy.isBlocking, Bool.and_eq_true, Option.isNone_iff_eq_none] at h
  obtain ⟨⟨hup, hdown⟩, hprio⟩ := h
  cases d <;> simp [Direction.shapes, Direction.cap, hup, hdown, hprio]

theorem commands_policySection (c : CompiledPolicy) :
    commands (policySection place c) = commands (policyCommands place c) := rfl

/-- The rules that a policy adds to the chain of a direction. -/
theorem chain_policySection (hc : ∀ r ∈ c.rules.rules, r.Every Flag.Carries) :
    chain (policySection place c) "mangle" d.chain =
      if d.shapes c.policy then (d.rules c.rules).map fun r => ⟨r.toList, .mark place⟩ else [] := by
  rw [chain, commands_policySection, ← chain, policyCommands]
  split
  · rename_i h
    rw [if_neg (not_shapes_of_isBlocking d h), chain_blocking hc, if_neg (by simp)]
  · have hup : ∀ r ∈ c.rules.upload, r.Every Flag.Carries := Direction.carries_rules .upload hc
    have hdown : ∀ r ∈ c.rules.download, r.Every Flag.Carries :=
      Direction.carries_rules .download hc
    rw [chain_append, chain_direction _ _ _ _ _ hup, chain_direction _ _ _ _ _ hdown]
    cases d with
    | upload =>
      simp [Direction.chain, uploadChain, downloadChain, Direction.shapes, Direction.cap,
        Direction.rules]
    | download =>
      simp [Direction.chain, uploadChain, downloadChain, Direction.shapes, Direction.cap,
        Direction.rules]

theorem chain_block_policySection (hc : ∀ r ∈ c.rules.rules, r.Every Flag.Carries) :
    chain (policySection place c) "filter" blockChain =
      if c.policy.isBlocking = true then c.rules.rules.map fun r => ⟨r.toList, .drop⟩ else [] := by
  rw [chain, commands_policySection, ← chain, policyCommands]
  split
  · rw [chain_blocking hc, if_pos ⟨rfl, rfl⟩]
  · have hup : ∀ r ∈ c.rules.upload, r.Every Flag.Carries := Direction.carries_rules .upload hc
    have hdown : ∀ r ∈ c.rules.download, r.Every Flag.Carries :=
      Direction.carries_rules .download hc
    rw [chain_append, chain_filter_direction _ _ _ _ _ hup, chain_filter_direction _ _ _ _ _ hdown,
      List.append_nil]

theorem filters_policySection (c : CompiledPolicy) :
    filters (policySection place c) d.device =
      if d.shapes c.policy then [⟨place, "1:" ++ hex place⟩] else [] := by
  rw [filters, commands_policySection, ← filters, policyCommands]
  split
  · rename_i h
    rw [if_neg (not_shapes_of_isBlocking d h), filters_blocking]
  · rw [filters_append, filters_direction, filters_direction]
    cases d <;> simp [Direction.device, Direction.shapes, Direction.cap]

theorem entered_policySection (c : CompiledPolicy) (table : String) (device : ScriptWord) :
    entered (policySection place c) table device = [] := by
  rw [entered, commands_policySection, ← entered, policyCommands]
  split
  · exact entered_blocking _ table device
  · rw [entered_append, entered_direction _ _ _ _ _ (by decide),
      entered_direction _ _ _ _ _ (by decide), List.append_nil]

/-- The section of a compiled policy sets the mark of a packet that the policy decides on, and
leaves every other mark. -/
theorem markAfter_policySection (e : Policy × ParameterBag) (p : Packet) (mark : Nat)
    [Decidable (d.Decides p e)] :
    markAfter p (chain (policySection place (.compile e.1 e.2)) "mangle" d.chain) mark =
      if d.Decides p e then place else mark := by
  rw [chain_policySection place d (RuleSet.carries_compile _ _ _), CompiledPolicy.policy_compile]
  by_cases hshapes : d.shapes e.1 = true
  · have hadmits : (∃ r ∈ d.rules (CompiledPolicy.compile e.1 e.2).rules, r.accepts p = true) ↔
        d.Decides p e := by
      rw [d.exists_rules_accepts]
      exact ⟨fun h => ⟨hshapes, h⟩, fun h => h.2⟩
    rw [if_pos hshapes, markAfter_map]
    exact if_congr hadmits rfl rfl
  · have hnot : ¬ d.Decides p e := fun h => hshapes h.1
    rw [if_neg hshapes, if_neg hnot]
    rfl

/-- The section of a blocking policy drops the packets that its bag admits, and no other section
drops any. -/
theorem drops_policySection (e : Policy × ParameterBag) (p : Packet) :
    drops p (chain (policySection place (.compile e.1 e.2)) "filter" blockChain) = true ↔
      e.1.isBlocking = true ∧ e.2.Admits p := by
  rw [chain_block_policySection place (RuleSet.carries_compile _ _ _),
    CompiledPolicy.policy_compile]
  by_cases hblocks : e.1.isBlocking = true
  · rw [if_pos hblocks, drops_map, CompiledPolicy.rules_compile_of_isBlocking e.2 hblocks,
      e.2.exists_forwardRules_accepts]
    exact ⟨fun h => ⟨hblocks, h⟩, fun h => h.2⟩
  · rw [if_neg hblocks]
    exact ⟨fun h => absurd h (by simp [drops]), fun h => absurd h.1 hblocks⟩

end policy

section sections

variable (d : Direction) (p : Packet) (entries : List (Policy × ParameterBag))

theorem policySections_append (place : Nat) (cs more : List CompiledPolicy) :
    policySections place (cs ++ more) =
      policySections place cs ++ policySections (place + cs.length) more := by
  induction cs generalizing place with
  | nil => rfl
  | cons c cs ih =>
    have hlength : place + (c :: cs).length = place + 1 + cs.length := by
      rw [List.length_cons]
      omega
    rw [List.cons_append, policySections, ih, policySections, List.append_assoc, hlength]

/-- The compiled policies of some entries. -/
def compiled (entries : List (Policy × ParameterBag)) : List CompiledPolicy :=
  entries.map fun e => .compile e.1 e.2

theorem compiled_append_cons (before : List (Policy × ParameterBag)) (e : Policy × ParameterBag)
    (after : List (Policy × ParameterBag)) :
    compiled (before ++ e :: after) = compiled before ++ .compile e.1 e.2 :: compiled after := by
  simp [compiled]

theorem length_compiled (entries : List (Policy × ParameterBag)) :
    (compiled entries).length = entries.length := List.length_map _

theorem policySections_compiled_cons (place : Nat) (e : Policy × ParameterBag) :
    policySections place (compiled (e :: entries)) =
      policySection place (.compile e.1 e.2) ++ policySections (place + 1) (compiled entries) := rfl

/-- Policies that do not decide on a packet leave its mark. -/
theorem markAfter_policySections_of_not (h : ∀ e ∈ entries, ¬ d.Decides p e) (place mark : Nat) :
    markAfter p (chain (policySections place (compiled entries)) "mangle" d.chain) mark = mark := by
  induction entries generalizing place mark with
  | nil => rfl
  | cons e entries ih =>
    classical
    obtain ⟨he, hrest⟩ := List.forall_mem_cons.mp h
    rw [policySections_compiled_cons, chain_append, markAfter_append, markAfter_policySection,
      if_neg he, ih hrest]

/-- The last policy that decides on a packet sets its mark. -/
theorem markAfter_policySections_of_last {before after : List (Policy × ParameterBag)}
    {e : Policy × ParameterBag} (he : d.Decides p e) (hafter : ∀ a ∈ after, ¬ d.Decides p a)
    (place mark : Nat) :
    markAfter p
      (chain (policySections place (compiled (before ++ e :: after))) "mangle" d.chain) mark =
        place + before.length := by
  classical
  rw [compiled_append_cons, policySections_append, policySections, chain_append, chain_append,
    markAfter_append, markAfter_append, markAfter_policySections_of_not d p after hafter,
    markAfter_policySection, if_pos he, length_compiled]

/-- The filters of a device queue a mark in the class of its place, and no mark is below the first
place. -/
theorem mem_filters_policySections {place : Nat} {f : MarkFilter}
    (hf : f ∈ filters (policySections place (compiled entries)) d.device) :
    place ≤ f.mark ∧ f.flow = "1:" ++ hex f.mark := by
  induction entries generalizing place with
  | nil => exact absurd hf List.not_mem_nil
  | cons e entries ih =>
    rw [policySections_compiled_cons, filters_append, List.mem_append, filters_policySection] at hf
    rcases hf with hf | hf
    · split at hf
      · rw [List.mem_singleton.mp hf]
        exact ⟨le_rfl, rfl⟩
      · exact absurd hf List.not_mem_nil
    · obtain ⟨hplace, hflow⟩ := ih hf
      exact ⟨by omega, hflow⟩

/-- A policy that shapes a direction has a filter for the mark of its place. -/
theorem exists_filter_policySections {e : Policy × ParameterBag} (he : d.shapes e.1 = true)
    (before after : List (Policy × ParameterBag)) (place : Nat) :
    ∃ f ∈ filters (policySections place (compiled (before ++ e :: after))) d.device,
      f.mark = place + before.length := by
  refine ⟨⟨place + before.length, "1:" ++ hex (place + before.length)⟩, ?_, rfl⟩
  rw [compiled_append_cons, policySections_append, policySections, filters_append, filters_append,
    filters_policySection, CompiledPolicy.policy_compile, if_pos he, length_compiled]
  simp

theorem entered_policySections (place : Nat) (cs : List CompiledPolicy) (table : String)
    (device : ScriptWord) : entered (policySections place cs) table device = [] := by
  induction cs generalizing place with
  | nil => rfl
  | cons c cs ih =>
    rw [policySections, entered_append, entered_policySection, ih, List.append_nil]

theorem drops_policySections (place : Nat) :
    drops p (chain (policySections place (compiled entries)) "filter" blockChain) = true ↔
      ∃ e ∈ entries, e.1.isBlocking = true ∧ e.2.Admits p := by
  induction entries generalizing place with
  | nil => simp [compiled, policySections, chain, drops]
  | cons e entries ih =>
    rw [policySections_compiled_cons, chain_append, drops_append, Bool.or_eq_true, drops_policySection,
      ih]
    simp

end sections

section plan

variable (interfaces : Interfaces) (moment : Calendar.Timestamp)
  (entries : List (Policy × ParameterBag))

/-- The script of a plan with the compiled policies of the entries. -/
def ofEntries : Script := ofPlan ⟨interfaces, moment, compiled entries⟩

theorem commands_ofEntries :
    commands (ofEntries interfaces moment entries) =
      commands reset ++ commands (policySections 1 (compiled entries)) := by
  rw [ofEntries, ofPlan, commands_append, commands_append, commands_header, List.nil_append]

theorem chain_ofEntries (table : String) {name : String} (hname : name ≠ "FORWARD") :
    chain (ofEntries interfaces moment entries) table name =
      chain (policySections 1 (compiled entries)) table name := by
  rw [chain, commands_ofEntries, List.filterMap_append, ← chain, ← chain, chain_reset table hname,
    List.nil_append]

theorem filters_ofEntries (device : ScriptWord) :
    filters (ofEntries interfaces moment entries) device =
      filters (policySections 1 (compiled entries)) device := by
  rw [filters, commands_ofEntries, List.filterMap_append, ← filters, ← filters, filters_reset,
    List.nil_append]

theorem entered_ofEntries (table : String) (device : ScriptWord) :
    entered (ofEntries interfaces moment entries) table device = entered reset table device := by
  rw [entered, commands_ofEntries, List.filterMap_append, ← entered, ← entered,
    entered_policySections, List.append_nil]

/-- The class of a packet is that of the filter for its mark. -/
theorem classOf_ofEntries (d : Direction) (p : Packet) {mark : Nat}
    (hmark : markAfter p (chain (policySections 1 (compiled entries)) "mangle" d.chain) 0 = mark) :
    classOf (ofEntries interfaces moment entries) d.device d.chain p =
      ((filters (policySections 1 (compiled entries)) d.device).find? (·.mark = mark)).map
        (·.flow) := by
  have hchain : d.chain ≠ "FORWARD" := by cases d <;> decide
  rw [classOf, chain_ofEntries _ _ _ _ hchain, filters_ofEntries, hmark]

/-- The last policy that decides on a packet chooses its class. -/
theorem classOf_ofEntries_of_last {d : Direction} {p : Packet}
    {before after : List (Policy × ParameterBag)} {e : Policy × ParameterBag}
    (he : d.Decides p e) (hafter : ∀ a ∈ after, ¬ d.Decides p a) :
    classOf (ofEntries interfaces moment (before ++ e :: after)) d.device d.chain p =
      some ("1:" ++ hex (before.length + 1)) := by
  have hmark : markAfter p (chain (policySections 1 (compiled (before ++ e :: after))) "mangle"
      d.chain) 0 = 1 + before.length := markAfter_policySections_of_last d p he hafter 1 0
  rw [classOf_ofEntries _ _ _ d p hmark]
  obtain ⟨f, hf, hfmark⟩ := exists_filter_policySections d he.1 before after 1
  cases hfind : (filters (policySections 1 (compiled (before ++ e :: after))) d.device).find?
      (·.mark = 1 + before.length) with
  | none =>
    have hnone := List.find?_eq_none.mp hfind f hf
    simp [hfmark] at hnone
  | some g =>
    have hg : g.mark = 1 + before.length := by simpa using List.find?_some hfind
    have hflow := (mem_filters_policySections d _ (List.mem_of_find?_eq_some hfind)).2
    rw [Option.map_some, hflow, hg, Nat.add_comm]

/-- A packet that no policy decides on has no class. -/
theorem classOf_ofEntries_of_not {d : Direction} {p : Packet}
    (h : ∀ e ∈ entries, ¬ d.Decides p e) :
    classOf (ofEntries interfaces moment entries) d.device d.chain p = none := by
  rw [classOf_ofEntries _ _ _ d p (markAfter_policySections_of_not d p entries h 1 0),
    Option.map_eq_none_iff]
  refine List.find?_eq_none.mpr fun f hf => ?_
  have hplace := (mem_filters_policySections d entries hf).1
  simp only [decide_eq_true_eq]
  omega

/-- Either no item of a list has a property, or there is a last one that has it. -/
theorem exists_last {α : Type} (P : α → Prop) (items : List α) :
    (∀ a ∈ items, ¬ P a) ∨
      ∃ before a after, items = before ++ a :: after ∧ P a ∧ ∀ b ∈ after, ¬ P b := by
  induction items with
  | nil => exact .inl fun a ha => absurd ha List.not_mem_nil
  | cons a items ih =>
    rcases ih with hnone | ⟨before, b, after, rfl, hb, hafter⟩
    · by_cases ha : P a
      · exact .inr ⟨[], a, items, rfl, ha, hnone⟩
      · exact .inl (List.forall_mem_cons.mpr ⟨ha, hnone⟩)
    · exact .inr ⟨a :: before, b, after, rfl, hb, hafter⟩

/-- What the lines of a script say of a packet. -/
theorem classification_ofEntries (p : Packet) :
    (∀ d : Direction,
      entered (ofEntries interfaces moment entries) "mangle" d.device = [d.chain] ∧
        (∀ c, classOf (ofEntries interfaces moment entries) d.device d.chain p = some c ↔
          ∃ before e after, entries = before ++ e :: after ∧ d.Decides p e ∧
            (∀ a ∈ after, ¬ d.Decides p a) ∧ c = "1:" ++ hex (before.length + 1)) ∧
        (classOf (ofEntries interfaces moment entries) d.device d.chain p = none ↔
          ∀ e ∈ entries, ¬ d.Decides p e)) ∧
      (∀ device, entered (ofEntries interfaces moment entries) "filter" device = [blockChain]) ∧
        (drops p (chain (ofEntries interfaces moment entries) "filter" blockChain) = true ↔
          ∃ e ∈ entries, e.1.upload = none ∧ e.1.download = none ∧ e.1.priority = none ∧
            e.2.Admits p) := by
  refine ⟨fun d => ⟨?_, fun c => ⟨fun h => ?_, ?_⟩, fun h => ?_, ?_⟩, fun device => ?_, ?_⟩
  · rw [entered_ofEntries]
    cases d with
    | upload => exact entered_reset.1
    | download => exact entered_reset.2.1
  · rcases exists_last (d.Decides p) entries with hnone | ⟨before, e, after, rfl, he, hafter⟩
    · rw [classOf_ofEntries_of_not _ _ _ hnone] at h
      exact absurd h (by simp)
    · rw [classOf_ofEntries_of_last _ _ he hafter] at h
      exact ⟨before, e, after, rfl, he, hafter, (Option.some.inj h).symm⟩
  · rintro ⟨before, e, after, rfl, he, hafter, rfl⟩
    exact classOf_ofEntries_of_last _ _ he hafter
  · rcases exists_last (d.Decides p) entries with hnone | ⟨before, e, after, rfl, he, hafter⟩
    · exact hnone
    · rw [classOf_ofEntries_of_last _ _ he hafter] at h
      exact absurd h (by simp)
  · exact classOf_ofEntries_of_not _ _ _
  · rw [entered_ofEntries]
    exact entered_reset.2.2 device
  · rw [chain_ofEntries _ _ _ _ (by decide), drops_policySections]
    simp only [Policy.isBlocking, Bool.and_eq_true, Option.isNone_iff_eq_none, and_assoc]

end plan

end Script

end TrafficWarden
