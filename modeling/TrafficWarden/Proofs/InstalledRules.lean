import TrafficWarden.Proofs.AcceptableRules
import TrafficWarden.Proofs.GatewayChanges
import TrafficWarden.Proofs.RuleCounts

/-!
# Compiled rules in the chains

What the section of a policy appends to the chains of the packet filter, and which of the compiled
rules that is. The reverses are worked out twice: for the list of compiled rules, and again for the
chain of download.
-/

namespace TrafficWarden

theorem Direction.exists_iff {P : Direction → Prop} : (∃ d, P d) ↔ P .upload ∨ P .download :=
  ⟨fun ⟨d, h⟩ => by cases d; exacts [.inl h, .inr h], fun h => h.elim (⟨_, ·⟩) (⟨_, ·⟩)⟩

/-- What a rule asks of a packet, in the words of a command. -/
def Rule.condition (r : Rule) : List ScriptWord := Script.literals r.words

/-- No word of a rule leads over to the verdict. -/
theorem Rule.WellFormed.jump_not_mem {r : Rule} (h : r.WellFormed) : "-j" ∉ r.words := by
  intro hmem
  obtain ⟨⟨f, v⟩, hitem, hword⟩ := List.mem_flatMap.mp hmem
  have hflag := h.mem_words (by decide) (Rule.mem_toList.mp hitem) hword
  revert hflag
  cases f <;> decide

namespace Script

/-- What is asked of a packet by the words after the chain, up to the verdict. -/
def conditionOf (rule : List ScriptWord) : List ScriptWord :=
  rule.takeWhile (· ≠ .literal "-j")

/-- What the rules that are appended to a chain ask of a packet, in order. -/
def conditions (s : Script) (table chain : String) : List (List ScriptWord) :=
  (s.appended table chain).map conditionOf

theorem conditionOf_literals {r : Rule} (h : r.WellFormed) (verdict : List String) :
    conditionOf (literals (r.words ++ "-j" :: verdict)) = r.condition := by
  have hwords : ∀ word ∈ r.condition, (word ≠ .literal "-j") := by
    rintro _ hword rfl
    obtain ⟨s, hs, heq⟩ := List.mem_map.mp hword
    exact h.jump_not_mem (ScriptWord.literal.inj heq ▸ hs)
  rw [literals, List.map_append, conditionOf, ← literals, ← Rule.condition,
    List.takeWhile_append_of_pos (by simpa using hwords)]
  simp

/-- Rules that are appended to one chain are asked for there and nowhere else. -/
theorem conditions_ruleChange {rules : List Rule} (hrules : ∀ r ∈ rules, r.WellFormed)
    (t c table chain : String) (verdict : List String) :
    ((rules.map (ruleChange t c ("-j" :: verdict))).filterMap
      (Change.appended? table chain)).map conditionOf =
        if t = table ∧ c = chain then rules.map Rule.condition else [] := by
  rw [List.filterMap_map, List.map_filterMap]
  by_cases h : t = table ∧ c = chain
  · rw [if_pos h, ← List.filterMap_eq_map]
    refine List.filterMap_congr fun r hr => ?_
    simp [ruleChange, Change.appended?, h, conditionOf_literals (hrules r hr)]
  · rw [if_neg h]
    refine List.filterMap_eq_nil_iff.mpr fun r _ => ?_
    simp [ruleChange, Change.appended?, h]

section policy

variable (place : Nat) {c : CompiledPolicy}

theorem conditions_shapingChanges (d : Direction) (hrules : ∀ r ∈ d.rules c.rules, r.WellFormed)
    (table chain : String) :
    ((shapingChanges place c d).filterMap (Change.appended? table chain)).map conditionOf =
      if d.shapes c.policy = true ∧ "mangle" = table ∧ d.chain = chain then
        (d.rules c.rules).map Rule.condition else [] := by
  unfold shapingChanges
  split
  · rename_i hshapes
    have hmarks := conditions_ruleChange hrules "mangle" d.chain table chain
      ["MARK", "--set-mark", "0x" ++ hex place]
    rw [List.cons_append, List.filterMap_cons_none rfl, List.filterMap_append,
      List.filterMap_cons_none rfl, List.filterMap_nil, List.append_nil]
    simp only [hshapes, true_and]
    exact hmarks
  · rename_i hshapes
    rw [if_neg fun h => hshapes h.1]
    rfl

/-- The section of a policy that blocks appends to the blocking chain alone. -/
theorem conditions_of_isBlocking (hblocks : c.policy.isBlocking = true)
    (hrules : ∀ r ∈ c.rules.rules, r.WellFormed) (table chain : String) :
    (policySection place c).conditions table chain =
      if "filter" = table ∧ blockChain = chain then c.rules.rules.map Rule.condition else [] := by
  rw [conditions, appended, changes_policySection, if_pos hblocks]
  exact conditions_ruleChange hrules "filter" blockChain table chain ["DROP"]

/-- The section of any other policy appends to the chains of the directions that it shapes. -/
theorem conditions_of_not_isBlocking (hblocks : ¬ c.policy.isBlocking = true)
    (hrules : ∀ d : Direction, ∀ r ∈ d.rules c.rules, r.WellFormed) (table chain : String) :
    (policySection place c).conditions table chain =
      [Direction.upload, .download].flatMap fun d =>
        if d.shapes c.policy = true ∧ "mangle" = table ∧ d.chain = chain then
          (d.rules c.rules).map Rule.condition else [] := by
  rw [conditions, appended, changes_policySection, if_neg hblocks, List.filterMap_append,
    List.map_append, conditions_shapingChanges place .upload (hrules .upload),
    conditions_shapingChanges place .download (hrules .download)]
  simp

end policy

section compiled

variable (place : Nat) (policy : Policy) (bag : ParameterBag)

theorem wellFormed_rules (d : Direction) :
    ∀ r ∈ d.rules (CompiledPolicy.compile policy bag).rules, r.WellFormed := by
  have hrules := RuleSet.wellFormed_compile bag policy.priority policy.download
  cases d with
  | upload => exact RuleSet.forall_mem_upload hrules
  | download => exact RuleSet.forall_mem_download hrules fun _ => Rule.WellFormed.reversed

/-- The section of a policy puts the rules of a direction into its chain, if it shapes it. -/
theorem conditions_direction (d : Direction) :
    (policySection place (.compile policy bag)).conditions "mangle" d.chain =
      if d.shapes policy then
        (d.rules (CompiledPolicy.compile policy bag).rules).map Rule.condition else [] := by
  by_cases hblocks : policy.isBlocking = true
  · rw [conditions_of_isBlocking place hblocks (RuleSet.wellFormed_compile bag _ _),
      if_neg (by simp), if_neg (not_shapes_of_isBlocking d hblocks)]
  · rw [conditions_of_not_isBlocking place hblocks (wellFormed_rules policy bag)]
    cases d <;> simp [Direction.chain, uploadChain, downloadChain]

theorem conditions_block :
    (policySection place (.compile policy bag)).conditions "filter" blockChain =
      if policy.isBlocking then bag.forwardRules.map Rule.condition else [] := by
  by_cases hblocks : policy.isBlocking = true
  · rw [conditions_of_isBlocking place hblocks (RuleSet.wellFormed_compile bag _ _), if_pos hblocks,
      if_pos ⟨rfl, rfl⟩, CompiledPolicy.rules_compile_of_isBlocking bag hblocks]
  · rw [conditions_of_not_isBlocking place hblocks (wellFormed_rules policy bag), if_neg hblocks]
    simp

/-- What the section of a policy asks for in any chain. -/
theorem exists_mem_conditions {m : List ScriptWord} :
    (∃ table chain, m ∈ (policySection place (.compile policy bag)).conditions table chain) ↔
      policy.isBlocking = true ∧ m ∈ bag.forwardRules.map Rule.condition ∨
        ∃ d : Direction, d.shapes policy = true ∧
          m ∈ (d.rules (CompiledPolicy.compile policy bag).rules).map Rule.condition := by
  constructor
  · rintro ⟨table, chain, hm⟩
    by_cases hblocks : policy.isBlocking = true
    · rw [conditions_of_isBlocking place hblocks (RuleSet.wellFormed_compile bag _ _),
        List.mem_ite_nil_right, CompiledPolicy.rules_compile_of_isBlocking bag hblocks] at hm
      exact .inl ⟨hblocks, hm.2⟩
    · rw [conditions_of_not_isBlocking place hblocks (wellFormed_rules policy bag)] at hm
      obtain ⟨d, -, hd⟩ := List.mem_flatMap.mp hm
      rw [List.mem_ite_nil_right] at hd
      exact .inr ⟨d, hd.1.1, hd.2⟩
  · rintro (⟨hblocks, hm⟩ | ⟨d, hshapes, hm⟩)
    · exact ⟨"filter", blockChain, by rwa [conditions_block, if_pos hblocks]⟩
    · exact ⟨"mangle", d.chain, by rwa [conditions_direction, if_pos hshapes]⟩

/-- The rules that the chains get for a policy: the compiled ones, but if the policy only has a
download cap, the reverses of the rules of the bag alone. -/
def installed : List Rule :=
  if policy.upload = none ∧ policy.priority = none ∧ policy.download.isSome then
    bag.forwardRules.map Rule.reversed
  else (CompiledPolicy.compile policy bag).rules.rules

theorem mem_installed {r : Rule} :
    r ∈ installed policy bag ↔ policy.isBlocking = true ∧ r ∈ bag.forwardRules ∨
      ∃ d : Direction, d.shapes policy = true ∧
        r ∈ d.rules (CompiledPolicy.compile policy bag).rules := by
  have hrules := RuleSet.mem_rules_compile bag policy.priority policy.download (r := r)
  rw [installed, Direction.exists_iff, CompiledPolicy.compile, Direction.rules, Direction.rules,
    RuleSet.upload_compile, RuleSet.download_compile,
    List.mem_map_of_involutive Rule.reversed_involutive]
  split
  · rename_i honly
    obtain ⟨hupload, hpriority, hdownload⟩ := honly
    obtain ⟨kbps, hkbps⟩ := Option.isSome_iff_exists.mp hdownload
    rw [List.mem_map_of_involutive Rule.reversed_involutive]
    simp [Policy.isBlocking, Direction.shapes, Direction.cap, hupload, hpriority, hkbps]
  · rename_i hmore
    rw [hrules]
    -- by the caps and the priority that are set: only the case of a download cap alone is excluded
    cases hupload : policy.upload <;> cases hpriority : policy.priority <;>
      cases hdownload : policy.download <;>
      simp_all [Policy.isBlocking, Direction.shapes, Direction.cap]

theorem exists_mem_conditions_iff {m : List ScriptWord} :
    (∃ table chain, m ∈ (policySection place (.compile policy bag)).conditions table chain) ↔
      m ∈ (installed policy bag).map Rule.condition := by
  rw [exists_mem_conditions]
  constructor
  · rintro (⟨hblocks, hm⟩ | ⟨d, hshapes, hm⟩)
    · obtain ⟨r, hr, rfl⟩ := List.mem_map.mp hm
      exact List.mem_map_of_mem ((mem_installed policy bag).mpr (.inl ⟨hblocks, hr⟩))
    · obtain ⟨r, hr, rfl⟩ := List.mem_map.mp hm
      exact List.mem_map_of_mem ((mem_installed policy bag).mpr (.inr ⟨d, hshapes, hr⟩))
  · intro hm
    obtain ⟨r, hr, rfl⟩ := List.mem_map.mp hm
    rcases (mem_installed policy bag).mp hr with ⟨hblocks, hr⟩ | ⟨d, hshapes, hr⟩
    · exact .inl ⟨hblocks, List.mem_map_of_mem hr⟩
    · exact .inr ⟨d, hshapes, List.mem_map_of_mem hr⟩

/-- The chains ask for nothing that is not a compiled rule. -/
theorem conditions_subset (table chain : String) :
    (policySection place (.compile policy bag)).conditions table chain ⊆
      (CompiledPolicy.compile policy bag).rules.rules.map Rule.condition := by
  intro m hm
  obtain ⟨r, hr, rfl⟩ := List.mem_map.mp
    ((exists_mem_conditions_iff place policy bag).mp ⟨table, chain, hm⟩)
  refine List.mem_map_of_mem ?_
  unfold installed at hr
  split at hr
  · rename_i honly
    rw [List.mem_map_of_involutive Rule.reversed_involutive] at hr
    exact (RuleSet.mem_rules_compile ..).mpr (.inr ⟨.inr honly.2.2, hr⟩)
  · exact hr

end compiled

/-- In the script that is read from the text of a plan, the chains ask only for compiled rules of a
policy. The chain of upload, if there is an upload cap or a priority, and the blocking chain, if
there is neither a cap nor a priority, get the rules of the bag in order. The chain of download, if
there is a download cap or a priority, gets their reverses in order. Otherwise a chain gets nothing
from the policy. Together they ask for all compiled rules, but for a policy that only has a download
cap: then for the reverses of the rules of the bag. -/
theorem installed_rules_compiled (interfaces : Interfaces) (moment : Calendar.Timestamp)
    (before after : List CompiledPolicy) (policy : Policy) (bag : ParameterBag) :
    let p : Plan := ⟨interfaces, moment, before ++ .compile policy bag :: after⟩
    let rules := (CompiledPolicy.compile policy bag).rules
    let originals := rules.rules.take rules.forwardCount
    let s := p.added (before.length + 1)
    read? p.script = some p.written ∧
      (∀ n, read? (p.upTo n).script = some (p.upTo n).written) ∧
      (∃ rest, p.written.commands =
        (p.upTo before.length).written.commands ++ s.commands ++ rest) ∧
      (∀ table chain, s.conditions table chain ⊆ rules.rules.map Rule.condition) ∧
      (s.conditions "mangle" uploadChain =
        if policy.upload.isSome ∨ policy.priority.isSome then
          originals.map Rule.condition else []) ∧
      (s.conditions "filter" blockChain =
        if policy.upload = none ∧ policy.download = none ∧ policy.priority = none then
          originals.map Rule.condition else []) ∧
      (s.conditions "mangle" downloadChain =
        if policy.download.isSome ∨ policy.priority.isSome then
          (originals.map Rule.reversed).map Rule.condition else []) ∧
      ∀ m, (∃ table chain, m ∈ s.conditions table chain) ↔
        m ∈ (if policy.upload = none ∧ policy.priority = none ∧ policy.download.isSome then
          originals.map Rule.reversed else rules.rules).map Rule.condition := by
  intro p rules originals s
  have hs : s = policyCommands (before.length + 1) (.compile policy bag) :=
    p.added_of_append_cons rfl
  have hconditions : s.conditions =
      (policySection (before.length + 1) (.compile policy bag)).conditions := by
    rw [hs]
    rfl
  have horiginals : originals = bag.forwardRules := RuleSet.upload_compile ..
  have hup : s.conditions "mangle" uploadChain =
      if (policy.upload.isSome || policy.priority.isSome) then
        originals.map Rule.condition else [] := by
    rw [hconditions]
    exact conditions_direction _ policy bag .upload
  have hdown : s.conditions "mangle" downloadChain =
      if (policy.download.isSome || policy.priority.isSome) then
        (originals.map Rule.reversed).map Rule.condition else [] := by
    rw [hconditions]
    exact conditions_direction _ policy bag .download
  refine ⟨p.read?_script, fun n => (p.upTo n).read?_script, p.exists_commands_written rfl, ?_, ?_,
    ?_, ?_, fun m => ?_⟩
  · rw [hconditions]
    exact conditions_subset _ policy bag
  · simpa only [Bool.or_eq_true] using hup
  · rw [horiginals, hconditions]
    simpa [Policy.isBlocking, and_assoc] using conditions_block _ policy bag
  · simpa only [Bool.or_eq_true] using hdown
  · rw [horiginals, hconditions]
    exact exists_mem_conditions_iff _ policy bag

/-- A subnet of the source. -/
def cappedBag : ParameterBag :=
  { (∅ : ParameterBag) with networks := ⟨.ofList [⟨⟨10, 1, 0, 0⟩, 16, by decide⟩], ∅⟩ }

/-- A policy that only has a download cap. -/
def cappedPolicy : Policy := ⟨⟨1⟩, "guests", none, true, none, none, some 512, []⟩

/-- A policy that only has a download cap puts nothing into the chain of upload. -/
theorem upload_chain_empty_of_download_cap :
    let rules := (CompiledPolicy.compile cappedPolicy cappedBag).rules
    let p : Plan := ⟨.standard, ⟨⟨2024, 3, 5, by decide⟩, ⟨10, 0, 0⟩⟩,
      [.compile cappedPolicy cappedBag]⟩
    read? p.script = some p.written ∧ (p.added 1).conditions "mangle" uploadChain = [] ∧
      (p.added 1).conditions "mangle" uploadChain ≠
        (rules.rules.take rules.forwardCount).map Rule.condition := by
  intro rules p
  have hfirst : (CompiledPolicy.compile cappedPolicy cappedBag, 1) ∈ p.policies.zipIdx 1 :=
    List.mem_singleton_self _
  have hconditions : (policyCommands 1 (.compile cappedPolicy cappedBag)).conditions "mangle"
      uploadChain = [] := by decide +kernel
  have hrules : (rules.rules.take rules.forwardCount).map Rule.condition ≠ [] := by decide +kernel
  rw [p.added_of_mem hfirst, hconditions]
  exact ⟨p.read?_script, rfl, hrules.symm⟩

end Script

end TrafficWarden
