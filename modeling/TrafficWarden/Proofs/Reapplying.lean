import TrafficWarden.Proofs.GatewayFrame
import TrafficWarden.Proofs.GatewaySessions

/-!
# Applying a plan again

Scripts may have been run before, to their end or not. The script of a plan then leads to the same
chains and queues as on a gateway without them, and hooks its chains in once.
-/

namespace TrafficWarden

namespace QueueTree

/-- The queues with the classes and filters that some changes add to a device. -/
def extend (t : QueueTree) (device : ScriptWord) (changes : List Change) : QueueTree where
  root := t.root
  classes := t.classes ++ changes.filterMap (Change.addedClass? device)
  filters := t.filters ++ changes.filterMap (Change.addedFilter? device)

theorem extend_append (t : QueueTree) (device : ScriptWord) (changes more : List Change) :
    t.extend device (changes ++ more) = (t.extend device changes).extend device more := by
  simp [extend]

theorem extend_of_ne (t : QueueTree) {device : ScriptWord} {change : Change}
    (h : change.device? ≠ some device) : t.extend device [change] = t := by
  have hclass : change.addedClass? device = none :=
    Option.eq_none_iff_forall_ne_some.mpr fun o ho => h (Change.device?_of_addedClass? ho)
  have hfilter : change.addedFilter? device = none :=
    Option.eq_none_iff_forall_ne_some.mpr fun o ho => h (Change.device?_of_addedFilter? ho)
  simp [extend, hclass, hfilter]

theorem extend_addClass (t : QueueTree) (device : ScriptWord) (options : List String) :
    t.extend device [.addClass device options] = { t with classes := t.classes ++ [options] } := by
  simp [extend, List.filterMap_cons, Change.addedClass?, Change.addedFilter?]

theorem extend_addFilter (t : QueueTree) (device : ScriptWord) (options : List String) :
    t.extend device [.addFilter device options] = { t with filters := t.filters ++ [options] } := by
  simp [extend, List.filterMap_cons, Change.addedClass?, Change.addedFilter?]

end QueueTree

theorem Script.Fills.appended?_forward {change : Change} (h : Fills change) (table : String) :
    change.appended? table "FORWARD" = none := by
  cases h with
  | appendRule hook rule => exact if_neg fun heq => hook.chain_ne_forward heq.2
  | addClass d hparent => rfl
  | addFilter d hparent => rfl

namespace Gateway

section filling

variable {i : Interfaces}

/-- A gateway is ready for some changes: the chains and root queues are there, and no class is added
twice. -/
structure Receives (i : Interfaces) (g : Gateway) (changes : List Change) : Prop where
  chains : ∀ h : Hook, (g.chain h.table h.chain).isSome = true
  trees : ∀ d : Direction, ∃ t, g.tree (i.word d.device) = some t ∧ t.handle = some "1:" ∧
    ((t.extend d.device changes).classes.map (optionOf "classid")).Nodup

/-- A gateway is what another one becomes by some changes. -/
structure Filled (i : Interfaces) (g : Gateway) (changes : List Change) (g' : Gateway) : Prop where
  chain : ∀ table name, g'.chain table name = (g.chain table name).map
    (· ++ (changes.filterMap (Change.appended? table name)).map (·.map i.word))
  tree : ∀ d : Direction,
    g'.tree (i.word d.device) = (g.tree (i.word d.device)).map (·.extend d.device changes)

theorem Filled.nil (g : Gateway) : Filled i g [] g where
  chain table name := by simp
  tree d := by simp [QueueTree.extend]

theorem Filled.trans {g g' g'' : Gateway} {changes more : List Change}
    (h : Filled i g changes g') (h' : Filled i g' more g'') : Filled i g (changes ++ more) g'' where
  chain table name := by
    rw [h'.chain, h.chain, Option.map_map, List.filterMap_append, List.map_append]
    exact congrArg (Option.map · _) (funext fun rules => List.append_assoc _ _ _)
  tree d := by
    rw [h'.tree, h.tree, Option.map_map]
    exact congrArg (Option.map · _) (funext fun t => (t.extend_append _ _ _).symm)

theorem Filled.receives {g g' : Gateway} {changes more : List Change}
    (h : Filled i g changes g') (hg : Receives i g (changes ++ more)) : Receives i g' more where
  chains hook := by
    rw [h.chain, Option.isSome_map]
    exact hg.chains hook
  trees d := by
    obtain ⟨t, ht, hhandle, hids⟩ := hg.trees d
    refine ⟨t.extend d.device changes, ?_, hhandle, ?_⟩
    · rw [h.tree, ht, Option.map_some]
    · rw [← QueueTree.extend_append]
      exact hids

theorem filled_setChain {g : Gateway} {table name : String} {rules : List (List String)}
    (hrules : g.chain table name = some rules) (rule : List ScriptWord) :
    Filled i g [.appendRule table name rule]
      (g.setChain table name (rules ++ [rule.map i.word])) where
  chain t n := by
    rw [chain_setChain]
    by_cases h : t = table ∧ n = name
    · simp [h, hrules, Change.appended?]
    · have hnot : ¬ (table = t ∧ name = n) := fun heq => h ⟨heq.1.symm, heq.2.symm⟩
      simp [h, hnot, Change.appended?]
  tree d := by
    have hdevice : (Change.appendRule table name rule).device? ≠ some d.device := by
      simp [Change.device?]
    rw [tree_setChain, funext fun t => QueueTree.extend_of_ne t hdevice, Option.map_id']

theorem word_device_injective (hi : i.outside ≠ i.inside) {d e : Direction}
    (h : i.word d.device = i.word e.device) : d = e := by
  cases d <;> cases e
  · rfl
  · exact absurd h hi
  · exact absurd h.symm hi
  · rfl

theorem filled_setTree (hi : i.outside ≠ i.inside) {g : Gateway} {d : Direction} {t : QueueTree}
    (ht : g.tree (i.word d.device) = some t) {change : Change}
    (hd : change.device? = some d.device) :
    Filled i g [change] (g.setTree (i.word d.device) (some (t.extend d.device [change]))) where
  chain table name := by
    have happended : change.appended? table name = none := by
      cases change with
      | appendRule table name rule => exact absurd hd (by simp [Change.device?])
      | _ => rfl
    simp [happended]
  tree e := by
    rw [tree_setTree]
    by_cases hed : e = d
    · subst hed
      rw [if_pos rfl, ht, Option.map_some]
    · have hdevice : change.device? ≠ some e.device := by
        rw [hd]
        cases d <;> cases e <;> simp_all [Direction.device]
      rw [if_neg fun heq => hed (word_device_injective hi heq),
        funext fun t => QueueTree.extend_of_ne t hdevice, Option.map_id']

/-- A change that fills a gateway can be made if the gateway is ready for it. -/
theorem exists_apply (hi : i.outside ≠ i.inside) {g : Gateway} {change : Change}
    (hchange : Script.Fills change) {changes : List Change}
    (hg : Receives i g (change :: changes)) :
    ∃ g', change.apply i g = some g' ∧ Filled i g [change] g' := by
  cases hchange with
  | appendRule h rule =>
    obtain ⟨rules, hrules⟩ := Option.isSome_iff_exists.mp (hg.chains h)
    refine ⟨_, ?_, filled_setChain hrules rule⟩
    rw [Change.apply, hrules, Option.map_some]
  | @addClass d options hparent =>
    obtain ⟨t, ht, hhandle, hids⟩ := hg.trees d
    have hfresh : optionOf "classid" options ∉ t.classes.map (optionOf "classid") := by
      have hclasses : (t.extend d.device (.addClass d.device options :: changes)).classes =
          t.classes ++ options :: changes.filterMap (Change.addedClass? d.device) := by
        simp [QueueTree.extend, Change.addedClass?]
      rw [hclasses, List.map_append, List.map_cons] at hids
      exact fun hmem => (List.nodup_append.mp hids).2.2 _ hmem _ List.mem_cons_self rfl
    have hadmits : t.admitsClass options = true := by
      simp only [QueueTree.admitsClass, hparent, hhandle, decide_true, Bool.true_and]
      simpa using hfresh
    refine ⟨_, ?_, filled_setTree hi ht rfl⟩
    rw [Change.apply, ht, Option.bind_some, if_pos hadmits, QueueTree.extend_addClass]
  | @addFilter d options hparent =>
    obtain ⟨t, ht, hhandle, -⟩ := hg.trees d
    have hadmits : t.admitsFilter options = true := by
      simp [QueueTree.admitsFilter, hparent, hhandle]
    refine ⟨_, ?_, filled_setTree hi ht rfl⟩
    rw [Change.apply, ht, Option.bind_some, if_pos hadmits, QueueTree.extend_addFilter]

/-- Filling a gateway hooks no chain in. -/
theorem Filled.hookCount_eq {g g' : Gateway} {changes : List Change}
    (h : Filled i g changes g') (hchanges : ∀ change ∈ changes, Script.Fills change)
    (hook : Hook) : g'.hookCount i hook = g.hookCount i hook := by
  have hnone : changes.filterMap (Change.appended? hook.table "FORWARD") = [] :=
    List.filterMap_eq_nil_iff.mpr fun change hchange =>
      (hchanges change hchange).appended?_forward hook.table
  have hforward : g'.forwardRules hook.table = g.forwardRules hook.table := by
    rw [forwardRules, h.chain, hnone]
    simp [forwardRules]
  exact congrArg (List.count _) hforward

/-- Commands that fill a gateway which is ready for them run to their end. -/
theorem exists_run (hi : i.outside ≠ i.inside) {cs : List Command}
    (hcs : ∀ c ∈ cs, ∃ change, c.change? = some change ∧ Script.Fills change) {g : Gateway}
    (hg : Receives i g (cs.filterMap Command.change?)) :
    ∃ g', run i cs g = (g', true) ∧ Filled i g (cs.filterMap Command.change?) g' := by
  induction cs generalizing g with
  | nil => exact ⟨g, rfl, .nil g⟩
  | cons c cs ih =>
    obtain ⟨⟨change, hchange, hfills⟩, hrest⟩ := List.forall_mem_cons.mp hcs
    have hchanges : (c :: cs).filterMap Command.change? =
        [change] ++ cs.filterMap Command.change? := List.filterMap_cons_some hchange
    rw [hchanges] at hg ⊢
    obtain ⟨g', happly, hfilled⟩ := exists_apply hi hfills hg
    obtain ⟨g'', hrun, hfilled'⟩ := ih hrest (hfilled.receives hg)
    refine ⟨g'', ?_, hfilled.trans hfilled'⟩
    rw [run_cons_of_execute (execute_of_apply hchange happly), hrun]

end filling

end Gateway

/-- The rules that the script of a plan appends to a chain of its own. -/
def Plan.rulesOf (p : Plan) (h : Hook) : List (List String) :=
  ((Script.ofPlan p).appended h.table h.chain).map (·.map p.interfaces.word)

/-- The queues that the script of a plan makes for the device of a direction. -/
def Plan.treeOf (p : Plan) (d : Direction) : QueueTree :=
  (QueueTree.bare Direction.rootOptions).extend d.device (Script.ofPlan p).changes

/-- A plan is in force on a gateway. -/
structure Plan.InForce (p : Plan) (g : Gateway) : Prop where
  hooked : ∀ h, g.hookCount p.interfaces h = 1
  rules : ∀ h : Hook, g.chain h.table h.chain = some (p.rulesOf h)
  trees : ∀ d : Direction, g.tree (p.interfaces.word d.device) = some (p.treeOf d)

namespace Script

/-- What the script of a plan does after its first commands. -/
def filling (p : Plan) : List Change := (policySections 1 p.policies).changes

theorem changes_eq_append (p : Plan) : (ofPlan p).changes = reset.changes ++ filling p := by
  rw [changes_eq, steps_ofPlan, List.filterMap_append, ← changes_eq, ← changes_eq]
  rfl

theorem filterMap_filling {α : Type} {f : Change → Option α} (h : reset.changes.filterMap f = [])
    (p : Plan) : (ofPlan p).changes.filterMap f = (filling p).filterMap f := by
  rw [changes_eq_append, List.filterMap_append, h, List.nil_append]

theorem appended_ofPlan (p : Plan) (h : Hook) :
    (ofPlan p).appended h.table h.chain =
      (filling p).filterMap (Change.appended? h.table h.chain) :=
  filterMap_filling (by cases h <;> decide) p

theorem extend_ofPlan (p : Plan) (d : Direction) (t : QueueTree) :
    t.extend d.device (ofPlan p).changes = t.extend d.device (filling p) := by
  rw [QueueTree.extend, QueueTree.extend, filterMap_filling (by cases d <;> decide),
    filterMap_filling (by cases d <;> decide)]

theorem nodup_classIds (p : Plan) (d : Direction) :
    (((ofPlan p).changes.filterMap (Change.addedClass? d.device)).map
      (optionOf "classid")).Nodup := by
  have hids : (((ofPlan p).changes.filterMap (Change.addedClass? d.device)).map
      (optionOf "classid")) = ((ofPlan p).classes d.device).map (·.id) := by
    rw [classes, List.map_filterMap, List.map_filterMap]
    refine List.filterMap_congr fun change _ => ?_
    rw [Change.class?, Option.map_map]
    rfl
  rw [hids]
  exact nodup_ids p d

/-- The first commands of a script make a gateway ready for all others. -/
theorem receives_filling (p : Plan) (g : Gateway) :
    (g.reset p.interfaces).Receives p.interfaces (filling p) where
  chains h := by
    rw [Gateway.chain_reset]
    rfl
  trees d := by
    refine ⟨_, Gateway.tree_reset _ g d, rfl, ?_⟩
    rw [← extend_ofPlan]
    exact nodup_classIds p d

theorem exists_fills {place : Nat} {cs : List CompiledPolicy} {c : Command}
    (hc : c ∈ (policySections place cs).steps) :
    ∃ change, c.change? = some change ∧ Fills change := by
  have hwords : c.words ∈ (policySections place cs).commands := by
    rw [commands_eq]
    exact List.mem_map_of_mem hc
  obtain ⟨change, hchange⟩ :=
    Option.isSome_iff_exists.mp (isSome_read?_policySections place cs c.words hwords)
  exact ⟨change, hchange, fills_of_mem (mem_changes hc hchange)⟩

end Script

open Gateway in
/-- On a gateway where its chains are hooked in at most once, the script of a plan runs to its end
and puts the plan in force. -/
theorem Plan.exists_run {p : Plan} (hp : p.interfaces.outside ≠ p.interfaces.inside) {g : Gateway}
    (hg : HookedAtMostOnce p.interfaces g) :
    ∃ g', run p.interfaces (Script.ofPlan p).steps g = (g', true) ∧ p.InForce g' := by
  have hready := Script.receives_filling p g
  have hchanges : (Script.policySections 1 p.policies).steps.filterMap Command.change? =
      Script.filling p := (Script.changes_eq _).symm
  rw [← hchanges] at hready
  obtain ⟨g', hrun, hfilled⟩ := Gateway.exists_run hp (fun c hc => Script.exists_fills hc) hready
  rw [hchanges] at hfilled
  refine ⟨g', ?_, fun h => ?_, fun h => ?_, fun d => ?_⟩
  · rw [Script.steps_ofPlan, run_append_of_run (run_reset _ g), hrun]
  · have honce := hg h
    rw [hfilled.hookCount_eq (fun change hchange => Script.fills_of_mem hchange), hookCount_reset]
    omega
  · rw [hfilled.chain, chain_reset, Option.map_some, List.nil_append, Plan.rulesOf,
      Script.appended_ofPlan]
  · rw [hfilled.tree, tree_reset, Option.map_some, Plan.treeOf, Script.extend_ofPlan]

/-- The script of a plan, run up to some number of its lines. -/
structure Attempt where
  plan : Plan
  count : Nat

namespace Attempt

open Gateway

/-- The gateway after an attempt, which runs the lines that are read from the text of the script. -/
def after (g : Gateway) (a : Attempt) : Option Gateway :=
  (Script.read? a.plan.script).map fun lines => (g.runLines (lines.take a.count)).1

/-- The gateway after some attempts. -/
def afterAll (history : List Attempt) (start : Gateway) : Option Gateway :=
  history.foldlM after start

theorem after_eq (g : Gateway) (a : Attempt) :
    after g a =
      some (run a.plan.interfaces ((Script.ofPlan a.plan).steps.take (a.count - 4)) g).1 := by
  rw [after, Plan.read?_script, Option.map_some, Plan.runLines_take]

/-- Whatever was attempted before, no chain is hooked in twice and all else is left alone. -/
theorem exists_afterAll {i : Interfaces} {start : Gateway} (hstart : HookedAtMostOnce i start)
    {history : List Attempt} (hhistory : ∀ a ∈ history, a.plan.interfaces = i) :
    ∃ g, afterAll history start = some g ∧ HookedAtMostOnce i g ∧ SameElsewhere i start g := by
  induction history generalizing start with
  | nil => exact ⟨start, rfl, hstart, .refl start⟩
  | cons a history ih =>
    obtain ⟨rfl, hrest⟩ := List.forall_mem_cons.mp hhistory
    have honce := keeps_hookedAtMostOnce a.plan (a.count - 4) start hstart
    have hsame := keeps_sameElsewhere (i := a.plan.interfaces) start a.plan (a.count - 4) start
      (.refl start)
    obtain ⟨g, hg, honce', hsame'⟩ := ih honce hrest
    refine ⟨g, ?_, honce', hsame.trans hsame'⟩
    rw [afterAll, List.foldlM_cons, after_eq]
    exact hg

end Attempt

open Gateway in
/-- Let a gateway have each chain hooked in at most once, and let any scripts for two distinct
interfaces be run there up to any of their lines. Then the script of a plan, as it is read from its
text, runs to its end and is ended by no line on the way. Its chains and queues are those of the
plan alone, hooked in once, and every other rule is where it was at the start. -/
theorem Plan.applies_whatever_was_attempted {p : Plan}
    (hp : p.interfaces.outside ≠ p.interfaces.inside) {start : Gateway}
    (hstart : HookedAtMostOnce p.interfaces start) {history : List Attempt}
    (hhistory : ∀ a ∈ history, a.plan.interfaces = p.interfaces) :
    ∃ lines before, Script.read? p.script = some lines ∧
      Attempt.afterAll history start = some before ∧
      (∀ n, (before.runLines (lines.take n)).2 = true) ∧
      ∃ g, before.runLines lines = (g, true) ∧ p.InForce g ∧
        SameElsewhere p.interfaces start g := by
  obtain ⟨before, hbefore, honce, hsame⟩ := Attempt.exists_afterAll hstart hhistory
  obtain ⟨g, hrun, hforce⟩ := p.exists_run hp honce
  refine ⟨p.written, before, p.read?_script, hbefore, fun n => ?_, g, ?_, hforce, ?_⟩
  · rw [p.runLines_take]
    exact run_take_of_run hrun _
  · rw [p.runLines_written, hrun]
  · have hkeeps := keeps_sameElsewhere start p (Script.ofPlan p).steps.length _ hsame
    rwa [List.take_length, hrun] at hkeeps

open Gateway in
/-- A script that was stopped after its eleventh command, and one that ran to its end, on a gateway
with a rule of its own for forwarded packets. -/
theorem Plan.applies_whatever_was_attempted_of_stopped :
    let moment : Calendar.Timestamp := ⟨⟨2024, 3, 5, by decide⟩, ⟨10, 0, 0⟩⟩
    let limit : CompiledPolicy :=
      ⟨⟨⟨1⟩, "guests", none, true, none, some 512, none, []⟩, ⟨[∅], 1⟩⟩
    let block : CompiledPolicy := ⟨⟨⟨2⟩, "games", none, true, none, none, none, []⟩, ⟨[∅], 1⟩⟩
    let p : Plan := ⟨.standard, moment, [limit]⟩
    let q : Plan := ⟨.standard, moment, [block, limit]⟩
    let start : Gateway := ⟨fun _ name =>
      if name = "FORWARD" then some [["-s", "10.0.0.9", "-j", "ACCEPT"]] else none,
      fun _ => none, fun _ _ => rfl⟩
    HookedAtMostOnce p.interfaces start ∧
      ∃ lines before, Script.read? p.script = some lines ∧
        Attempt.afterAll [⟨q, 15⟩, ⟨q, 30⟩] start = some before ∧
        (∀ n, (before.runLines (lines.take n)).2 = true) ∧
        ∃ g, before.runLines lines = (g, true) ∧ p.InForce g ∧
          SameElsewhere p.interfaces start g := by
  intro moment limit block p q start
  have hstart : HookedAtMostOnce p.interfaces start := fun h => by cases h <;> decide
  have hhistory : ∀ a ∈ [(⟨q, 15⟩ : Attempt), ⟨q, 30⟩], a.plan.interfaces = p.interfaces := by
    simp [p, q]
  exact ⟨hstart, applies_whatever_was_attempted (by decide) hstart hhistory⟩

end TrafficWarden
