import TrafficWarden.Proofs.GatewayReset

/-!
# What a script leaves alone

The commands of a script change its own three chains, the rules by which these are entered, and the
queues of its two devices. Whatever part of a script is run, every other rule stays where it is, and
a chain that was entered at most once is still entered at most once.
-/

namespace TrafficWarden

/-- The changes that a script may ask for, apart from those that hook a chain in. -/
inductive Change.Calm : Change → Prop
  | newChain (h : Hook) : Calm (.newChain h.table h.chain)
  | flush (h : Hook) : Calm (.flush h.table h.chain)
  | unhook (h : Hook) : Calm (.deleteRule h.table "FORWARD" h.rule)
  | appendRule (h : Hook) (rule : List ScriptWord) : Calm (.appendRule h.table h.chain rule)
  | queue (d : Direction) {change : Change} (hd : change.device? = some d.device) : Calm change

/-- The changes that a script may ask for. -/
inductive Change.Owned : Change → Prop
  | calm {change : Change} (h : change.Calm) : Owned change
  | hook (h : Hook) : Owned (.appendRule h.table "FORWARD" h.rule)

namespace Script

/-- A change that fills what the first commands of a script have made. -/
inductive Fills : Change → Prop
  | appendRule (h : Hook) (rule : List ScriptWord) : Fills (.appendRule h.table h.chain rule)
  | addClass (d : Direction) {options : List String}
    (hparent : optionOf "parent" options = some "1:") : Fills (.addClass d.device options)
  | addFilter (d : Direction) {options : List String}
    (hparent : optionOf "parent" options = some "1:") : Fills (.addFilter d.device options)

theorem Fills.calm {change : Change} (h : Fills change) : change.Calm := by
  cases h with
  | appendRule h rule => exact .appendRule h rule
  | addClass d hparent => exact .queue d rfl
  | addFilter d hparent => exact .queue d rfl

theorem PolicyChange.fills {place : Nat} {c : CompiledPolicy} {change : Change}
    (h : PolicyChange place c change) : Fills change := by
  cases h with
  | drop hblocks r => exact .appendRule .block _
  | queueClass d hshapes => exact .addClass d (by simp [classOptions, optionOf])
  | mark d hshapes r =>
    cases d with
    | upload => exact .appendRule .upload _
    | download => exact .appendRule .download _
  | queueFilter d hshapes => exact .addFilter d (by simp [filterOptions, optionOf])

theorem fills_of_mem {place : Nat} {cs : List CompiledPolicy} {change : Change}
    (h : change ∈ (policySections place cs).changes) : Fills change := by
  rw [changes_policySections, List.mem_flatMap] at h
  obtain ⟨⟨c, n⟩, -, hchange⟩ := h
  exact (policyChange_of_mem hchange).fills

theorem calm_of_mem_hook_steps {h : Hook} {c : Command} (hc : c ∈ [h.create, h.clear, h.unhook])
    {change : Change} (hchange : c.change? = some change) : change.Calm := by
  simp only [List.mem_cons, List.not_mem_nil, or_false] at hc
  rcases hc with rfl | rfl | rfl
  · rw [← Option.some.inj hchange]
    exact .newChain h
  · rw [← Option.some.inj hchange]
    exact .flush h
  · rw [← Option.some.inj hchange]
    exact .unhook h

theorem device?_of_mem_direction_steps {d : Direction} {c : Command} (hc : c ∈ d.steps)
    {change : Change} (hchange : c.change? = some change) : change.device? = some d.device := by
  simp only [Direction.steps, List.mem_cons, List.not_mem_nil, or_false] at hc
  rcases hc with rfl | rfl
  · rw [← Option.some.inj hchange]
    rfl
  · rw [← Option.some.inj hchange]
    rfl

theorem calm_of_mem_direction_steps {c : Command} (hc : c ∈ Direction.all.flatMap Direction.steps)
    {change : Change} (hchange : c.change? = some change) : change.Calm := by
  obtain ⟨d, -, hc⟩ := List.mem_flatMap.mp hc
  exact .queue d (device?_of_mem_direction_steps hc hchange)

theorem calm_of_mem_policySections {place : Nat} {cs : List CompiledPolicy} {c : Command}
    (hc : c ∈ (policySections place cs).steps) {change : Change}
    (hchange : c.change? = some change) : change.Calm :=
  (fills_of_mem (mem_changes hc hchange)).calm

theorem owned_of_mem {p : Plan} {c : Command} (hc : c ∈ (ofPlan p).steps) {change : Change}
    (hchange : c.change? = some change) : change.Owned := by
  rw [steps_ofPlan, steps_reset, List.mem_append, List.mem_append, List.mem_flatMap] at hc
  rcases hc with (⟨h, -, hc⟩ | hc) | hc
  · have hsteps : h.steps = [h.create, h.clear, h.unhook] ++ [h.hook] := rfl
    rcases List.mem_append.mp (hsteps ▸ hc) with hc | hc
    · exact .calm (calm_of_mem_hook_steps hc hchange)
    · rw [List.mem_singleton.mp hc, Hook.change?_hook] at hchange
      rw [← Option.some.inj hchange]
      exact .hook h
  · exact .calm (calm_of_mem_direction_steps hc hchange)
  · exact .calm (calm_of_mem_policySections hc hchange)

end Script

namespace Gateway

section frame

variable (i : Interfaces)

/-- Whether a rule of a chain lets forwarded packets enter a chain of a script. -/
def isHook (table name : String) (rule : List String) : Bool :=
  name = "FORWARD" && Hook.all.any fun h => h.table = table && h.words i = rule

/-- The rules of a chain apart from those by which packets enter the chains of a script, in
order. -/
def others (g : Gateway) (table name : String) : Option (List (List String)) :=
  (g.chain table name).map (·.filter fun rule => !isHook i table name rule)

/-- Two gateways are the same outside of what a script owns: the other rules of every chain but the
three of a script, in their order, and the queues of all other devices. -/
structure SameElsewhere (g g' : Gateway) : Prop where
  rules : ∀ table name, (∀ h : Hook, ¬ (table = h.table ∧ name = h.chain)) →
    g'.others i table name = g.others i table name
  trees : ∀ device, device ≠ i.outside → device ≠ i.inside → g'.tree device = g.tree device

variable {i} {g g' g'' : Gateway}

theorem SameElsewhere.refl (g : Gateway) : SameElsewhere i g g :=
  ⟨fun _ _ _ => rfl, fun _ _ _ => rfl⟩

theorem SameElsewhere.trans (h : SameElsewhere i g g') (h' : SameElsewhere i g' g'') :
    SameElsewhere i g g'' where
  rules table name hnot := (h'.rules table name hnot).trans (h.rules table name hnot)
  trees device ho hi := (h'.trees device ho hi).trans (h.trees device ho hi)

theorem isHook_words (h : Hook) : isHook i h.table "FORWARD" (h.words i) = true := by
  refine Bool.and_eq_true_iff.mpr ⟨rfl, List.any_eq_true.mpr ⟨h, h.mem_all, ?_⟩⟩
  simp

theorem sameElsewhere_setChain (h : Hook) (rules : List (List String)) :
    SameElsewhere i g (g.setChain h.table h.chain rules) where
  rules table name hnot := by rw [others, chain_setChain, if_neg (hnot h), others]
  trees _ _ _ := rfl

theorem sameElsewhere_setForward (h : Hook) {rules : List (List String)}
    (hsame : rules.filter (fun rule => !isHook i h.table "FORWARD" rule) =
      (g.forwardRules h.table).filter fun rule => !isHook i h.table "FORWARD" rule) :
    SameElsewhere i g (g.setChain h.table "FORWARD" rules) where
  rules table name hnot := by
    rw [others, chain_setChain]
    split
    · rename_i heq
      rw [heq.1, heq.2, others, chain_forward, Option.map_some, Option.map_some, hsame]
    · rfl
  trees _ _ _ := rfl

theorem sameElsewhere_setTree (d : Direction) (tree : Option QueueTree) :
    SameElsewhere i g (g.setTree (i.word d.device) tree) where
  rules _ _ _ := rfl
  trees device hout hin := by
    have hne : device ≠ i.word d.device := by
      cases d with
      | upload => exact hout
      | download => exact hin
    rw [tree_setTree, if_neg hne]

theorem filter_erase_of_not {α : Type} [BEq α] [LawfulBEq α] {P : α → Bool} {a : α}
    (ha : P a = false) (items : List α) : (items.erase a).filter P = items.filter P := by
  induction items with
  | nil => rfl
  | cons b items ih =>
    rw [List.erase_cons]
    split
    · rename_i hb
      rw [eq_of_beq hb, List.filter_cons_of_neg (by simp [ha])]
    · rw [List.filter_cons, List.filter_cons, ih]

theorem exists_setTree_of_apply {change : Change} {device : ScriptWord}
    (hd : change.device? = some device) (h : change.apply i g = some g') :
    ∃ tree, g' = g.setTree (i.word device) tree := by
  cases change with
  | deleteRoot d =>
    obtain rfl := Option.some.inj hd
    obtain ⟨t, -, rfl⟩ := Option.map_eq_some_iff.mp h
    exact ⟨_, rfl⟩
  | addRoot d options =>
    obtain rfl := Option.some.inj hd
    exact ⟨_, (Option.some.inj (Option.ite_none_left_eq_some.mp h).2).symm⟩
  | addClass d options =>
    obtain rfl := Option.some.inj hd
    obtain ⟨t, -, ht⟩ := Option.bind_eq_some_iff.mp h
    exact ⟨_, (Option.some.inj (Option.ite_none_right_eq_some.mp ht).2).symm⟩
  | addFilter d options =>
    obtain rfl := Option.some.inj hd
    obtain ⟨t, -, ht⟩ := Option.bind_eq_some_iff.mp h
    exact ⟨_, (Option.some.inj (Option.ite_none_right_eq_some.mp ht).2).symm⟩
  | _ => exact absurd hd (by simp [Change.device?])

/-- What a change that hooks no chain in makes of a gateway. -/
inductive CalmEffect (i : Interfaces) (g : Gateway) : Gateway → Prop
  | chain (h : Hook) (rules : List (List String)) :
    CalmEffect i g (g.setChain h.table h.chain rules)
  | unhook (h : Hook) : CalmEffect i g
    (g.setChain h.table "FORWARD" ((g.forwardRules h.table).erase (h.words i)))
  | tree (d : Direction) (t : Option QueueTree) : CalmEffect i g (g.setTree (i.word d.device) t)

theorem calmEffect_of_apply {change : Change} (hchange : change.Calm)
    (h : change.apply i g = some g') : CalmEffect i g g' := by
  cases hchange with
  | newChain hook =>
    rw [← Option.some.inj (Option.ite_none_left_eq_some.mp h).2]
    exact .chain hook _
  | flush hook =>
    obtain ⟨rules, -, rfl⟩ := Option.map_eq_some_iff.mp h
    exact .chain hook _
  | unhook hook =>
    rw [Change.apply, chain_forward, Option.bind_some] at h
    rw [← Option.some.inj (Option.ite_none_right_eq_some.mp h).2]
    exact .unhook hook
  | appendRule hook rule =>
    obtain ⟨rules, -, rfl⟩ := Option.map_eq_some_iff.mp h
    exact .chain hook _
  | queue d hd =>
    obtain ⟨t, rfl⟩ := exists_setTree_of_apply hd h
    exact .tree d t

theorem CalmEffect.sameElsewhere (h : CalmEffect i g g') : SameElsewhere i g g' := by
  cases h with
  | chain hook rules => exact sameElsewhere_setChain hook rules
  | unhook hook =>
    refine sameElsewhere_setForward hook ?_
    exact filter_erase_of_not (by simp [isHook_words]) _
  | tree d t => exact sameElsewhere_setTree d t

theorem sameElsewhere_of_apply {change : Change} (hchange : change.Owned)
    (h : change.apply i g = some g') : SameElsewhere i g g' := by
  cases hchange with
  | calm hcalm => exact (calmEffect_of_apply hcalm h).sameElsewhere
  | hook hook =>
    rw [Change.apply, chain_forward, Option.map_some] at h
    rw [← Option.some.inj h]
    refine sameElsewhere_setForward hook ?_
    have hwords : (!isHook i hook.table "FORWARD" (hook.rule.map i.word)) = false := by
      rw [← Hook.words, isHook_words]
      rfl
    rw [List.filter_append, List.filter_cons_of_neg (by simp [hwords]), List.filter_nil,
      List.append_nil]

/-- Every part of a script leaves all else alone. -/
theorem keeps_sameElsewhere (start : Gateway) (p : Plan) :
    Keeps i (SameElsewhere i start) (Script.ofPlan p).steps := by
  refine keeps_of_forall fun c hc change hchange g g' happly hg => ?_
  exact hg.trans (sameElsewhere_of_apply (Script.owned_of_mem hc hchange) happly)

end frame

section hooks

variable {i : Interfaces} {g g' : Gateway}

/-- Each chain of a script is hooked in at most once. -/
def HookedAtMostOnce (i : Interfaces) (g : Gateway) : Prop := ∀ h, g.hookCount i h ≤ 1

theorem CalmEffect.hookCount_le (h : CalmEffect i g g') (hook : Hook) :
    g'.hookCount i hook ≤ g.hookCount i hook := by
  cases h with
  | chain other rules =>
    rw [hookCount, forwardRules, chain_setChain,
      if_neg fun heq => other.chain_ne_forward heq.2.symm]
    exact Nat.le_refl _
  | unhook other =>
    rw [hookCount, forwardRules, chain_setChain]
    split
    · rename_i heq
      rw [hookCount, heq.1]
      exact List.erase_sublist.count_le _
    · exact Nat.le_refl _
  | tree d t => exact Nat.le_refl _

theorem keeps_hookedAtMostOnce_of_calm {cs : List Command}
    (h : ∀ c ∈ cs, ∀ change, c.change? = some change → change.Calm) :
    Keeps i (HookedAtMostOnce i) cs :=
  keeps_of_forall fun c hc change hchange _ _ happly hg hook =>
    ((calmEffect_of_apply (h c hc change hchange) happly).hookCount_le hook).trans (hg hook)

theorem keeps_hookedAtMostOnce_hook_steps (h : Hook) : Keeps i (HookedAtMostOnce i) h.steps := by
  have hbefore : Keeps i (HookedAtMostOnce i) [h.create, h.clear, h.unhook] :=
    keeps_hookedAtMostOnce_of_calm fun c hc change => Script.calm_of_mem_hook_steps hc
  refine hbefore.concat fun g hg hook => ?_
  have hrun : run i ([h.create, h.clear, h.unhook] ++ [h.hook]) g = (g.rehook i h, true) :=
    run_hook_steps i g h
  rw [hrun, hookCount_rehook]
  split
  · have := hg h
    omega
  · exact hg hook

/-- Wherever a script is stopped, no chain is hooked in twice. -/
theorem keeps_hookedAtMostOnce (p : Plan) :
    Keeps i (HookedAtMostOnce i) (Script.ofPlan p).steps := by
  have hhooks : ∀ hs : List Hook, Keeps i (HookedAtMostOnce i) (hs.flatMap Hook.steps) := by
    intro hs
    induction hs with
    | nil => exact keeps_of_forall fun c hc => absurd hc List.not_mem_nil
    | cons h hs ih => exact (keeps_hookedAtMostOnce_hook_steps h).append ih
  rw [Script.steps_ofPlan, Script.steps_reset]
  refine ((hhooks _).append ?_).append ?_
  · exact keeps_hookedAtMostOnce_of_calm fun c hc change => Script.calm_of_mem_direction_steps hc
  · exact keeps_hookedAtMostOnce_of_calm fun c hc change => Script.calm_of_mem_policySections hc

end hooks

end Gateway

end TrafficWarden
