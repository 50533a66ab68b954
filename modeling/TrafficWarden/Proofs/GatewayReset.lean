import TrafficWarden.Proofs.GatewayState

/-!
# Resetting the gateway

The first commands of a script empty its three chains, hook each of them in where forwarded packets
pass, and make the root queues anew. They succeed on every gateway. A chain is hooked in once if it
was hooked in at most once before, and nothing else is touched.
-/

namespace TrafficWarden

/-- The places where forwarded packets enter the chains of a script. -/
inductive Hook where
  | upload
  | download
  | block
deriving DecidableEq, Repr

namespace Hook

def all : List Hook := [upload, download, block]

theorem mem_all (h : Hook) : h ∈ all := by cases h <;> decide

def table : Hook → String
  | .block => "filter"
  | _ => "mangle"

/-- The chain that is entered. -/
def chain : Hook → String
  | .upload => Script.uploadChain
  | .download => Script.downloadChain
  | .block => Script.blockChain

/-- Which of the forwarded packets enter the chain. -/
def condition : Hook → List ScriptWord
  | .upload => [.literal "-o", .outside]
  | .download => [.literal "-o", .inside]
  | .block => []

def rule (h : Hook) : List ScriptWord := h.condition ++ Script.literals ["-j", h.chain]

/-- The rule of a hook on a gateway with these interfaces. -/
def words (i : Interfaces) (h : Hook) : List String := h.rule.map i.word

theorem table_mem (h : Hook) : h.table ∈ ["mangle", "filter"] := by cases h <;> decide

theorem chain_ne_forward (h : Hook) : h.chain ≠ "FORWARD" := by cases h <;> decide

theorem chain_injective : Function.Injective chain := by
  intro h h' heq
  cases h <;> cases h' <;> first | rfl | exact absurd heq (by decide)

theorem words_injective (i : Interfaces) : Function.Injective (words i) := by
  intro h h' heq
  have hlast : ∀ h : Hook, (h.words i).getLast? = some h.chain := fun h => by
    simp [words, rule, Script.literals, Interfaces.word]
  have hchain : some h.chain = some h'.chain := by rw [← hlast, ← hlast, heq]
  exact chain_injective (Option.some.inj hchain)

/-- Makes the chain. -/
def create (h : Hook) : Command :=
  ⟨Script.literals ["iptables", "-t", h.table, "-N", h.chain], true⟩

/-- Empties the chain. -/
def clear (h : Hook) : Command :=
  ⟨Script.literals ["iptables", "-t", h.table, "-F", h.chain], false⟩

/-- Takes the chain out of the forwarding chain. -/
def unhook (h : Hook) : Command :=
  ⟨Script.literals ["iptables", "-t", h.table, "-D", "FORWARD"] ++ h.rule, true⟩

/-- Puts the chain into the forwarding chain. -/
def hook (h : Hook) : Command :=
  ⟨Script.literals ["iptables", "-t", h.table, "-A", "FORWARD"] ++ h.rule, false⟩

def steps (h : Hook) : List Command := [h.create, h.clear, h.unhook, h.hook]

theorem change?_create (h : Hook) : h.create.change? = some (.newChain h.table h.chain) := rfl

theorem change?_clear (h : Hook) : h.clear.change? = some (.flush h.table h.chain) := rfl

theorem change?_unhook (h : Hook) :
    h.unhook.change? = some (.deleteRule h.table "FORWARD" h.rule) := rfl

theorem change?_hook (h : Hook) :
    h.hook.change? = some (.appendRule h.table "FORWARD" h.rule) := rfl

end Hook

namespace Direction

def all : List Direction := [upload, download]

/-- Removes the queues of the device. -/
def dropRoot (d : Direction) : Command :=
  ⟨Script.literals ["tc", "qdisc", "del", "dev"] ++ d.device :: Script.literals ["root"], true⟩

/-- The options of a root queue. -/
def rootOptions : List String := ["handle", "1:", "htb"]

/-- Makes a root queue for the device. -/
def makeRoot (d : Direction) : Command :=
  ⟨Script.literals ["tc", "qdisc", "add", "dev"] ++
    d.device :: Script.literals ("root" :: rootOptions), false⟩

def steps (d : Direction) : List Command := [d.dropRoot, d.makeRoot]

theorem change?_dropRoot (d : Direction) : d.dropRoot.change? = some (.deleteRoot d.device) := rfl

theorem change?_makeRoot (d : Direction) :
    d.makeRoot.change? = some (.addRoot d.device rootOptions) := rfl

end Direction

theorem Script.steps_reset :
    Script.reset.steps = Hook.all.flatMap Hook.steps ++ Direction.all.flatMap Direction.steps := rfl

namespace Gateway

variable (i : Interfaces) (g : Gateway)

/-- The rules for forwarded packets. -/
def forwardRules (table : String) : List (List String) := (g.chain table "FORWARD").getD []

/-- How often a chain is hooked in. -/
def hookCount (h : Hook) : Nat := (g.forwardRules h.table).count (h.words i)

/-- The gateway with the chain of a hook empty, and hooked in once more at the end. -/
def rehook (h : Hook) : Gateway :=
  (g.setChain h.table h.chain []).setChain h.table "FORWARD"
    ((g.forwardRules h.table).erase (h.words i) ++ [h.words i])

/-- The gateway with a root queue alone on the device of a direction. -/
def reroot (d : Direction) : Gateway :=
  g.setTree (i.word d.device) (some (.bare Direction.rootOptions))

/-- The gateway after the first commands of a script. -/
def reset : Gateway := Direction.all.foldl (reroot i) (Hook.all.foldl (rehook i) g)

theorem chain_forward (h : Hook) : g.chain h.table "FORWARD" = some (g.forwardRules h.table) := by
  obtain ⟨rules, hrules⟩ := Option.isSome_iff_exists.mp (g.forward h.table h.table_mem)
  rw [forwardRules, hrules, Option.getD_some]

section steps

variable (h : Hook)

theorem exists_execute_create :
    ∃ g', g.execute i h.create = (g', true) ∧ (g'.chain h.table h.chain).isSome = true ∧
      g'.setChain h.table h.chain [] = g.setChain h.table h.chain [] := by
  by_cases hsome : (g.chain h.table h.chain).isSome = true
  · exact ⟨g, execute_of_not_apply h.change?_create (if_pos hsome), hsome, rfl⟩
  · refine ⟨_, execute_of_apply h.change?_create (if_neg hsome), ?_, setChain_setChain ..⟩
    rw [chain_setChain, if_pos ⟨rfl, rfl⟩]
    rfl

theorem execute_clear {g : Gateway} (hsome : (g.chain h.table h.chain).isSome = true) :
    g.execute i h.clear = (g.setChain h.table h.chain [], true) := by
  obtain ⟨rules, hrules⟩ := Option.isSome_iff_exists.mp hsome
  exact execute_of_apply h.change?_clear (by rw [Change.apply, hrules, Option.map_some])

/-- After this command the chain is hooked in once less, whether it was hooked in or not. -/
theorem execute_unhook :
    g.execute i h.unhook =
      (g.setChain h.table "FORWARD" ((g.forwardRules h.table).erase (h.words i)), true) := by
  by_cases hmem : h.words i ∈ g.forwardRules h.table
  · refine execute_of_apply h.change?_unhook ?_
    rw [Change.apply, chain_forward, Option.bind_some]
    exact if_pos hmem
  · rw [List.erase_of_not_mem hmem, setChain_eq_self (g.chain_forward h)]
    refine execute_of_not_apply h.change?_unhook ?_
    rw [Change.apply, chain_forward, Option.bind_some]
    exact if_neg hmem

theorem execute_hook :
    g.execute i h.hook =
      (g.setChain h.table "FORWARD" (g.forwardRules h.table ++ [h.words i]), true) := by
  refine execute_of_apply h.change?_hook ?_
  rw [Change.apply, chain_forward, Option.map_some]
  rfl

theorem run_hook_steps : run i h.steps g = (g.rehook i h, true) := by
  obtain ⟨g', hcreate, hsome, hsame⟩ := g.exists_execute_create i h
  have hforward :
      (g.setChain h.table h.chain []).forwardRules h.table = g.forwardRules h.table := by
    rw [forwardRules, chain_setChain, if_neg fun heq => h.chain_ne_forward heq.2.symm]
    rfl
  have hunhooked : ∀ rules, ((g.setChain h.table h.chain []).setChain h.table "FORWARD"
      rules).forwardRules h.table = rules := by
    intro rules
    rw [forwardRules, chain_setChain, if_pos ⟨rfl, rfl⟩]
    rfl
  rw [Hook.steps, run_cons_of_execute hcreate, run_cons_of_execute (execute_clear i h hsome), hsame,
    run_cons_of_execute (execute_unhook i _ h), run_cons_of_execute (execute_hook i _ h), hforward,
    hunhooked, setChain_setChain]
  rfl

theorem run_direction_steps (d : Direction) : run i d.steps g = (g.reroot i d, true) := by
  have hdropped : g.execute i d.dropRoot = (g.setTree (i.word d.device) none, true) := by
    cases htree : g.tree (i.word d.device) with
    | none =>
      rw [setTree_eq_self htree]
      exact execute_of_not_apply d.change?_dropRoot (by rw [Change.apply, htree, Option.map_none])
    | some t =>
      exact execute_of_apply d.change?_dropRoot (by rw [Change.apply, htree, Option.map_some])
  have hmade : (g.setTree (i.word d.device) none).execute i d.makeRoot = (g.reroot i d, true) := by
    refine execute_of_apply d.change?_makeRoot ?_
    rw [Change.apply, tree_setTree, if_pos rfl, setTree_setTree]
    rfl
  rw [Direction.steps, run_cons_of_execute hdropped, run_cons_of_execute hmade]
  rfl

theorem run_flatMap {α : Type} {steps : α → List Command} {act : Gateway → α → Gateway}
    (h : ∀ a g, run i (steps a) g = (act g a, true)) (items : List α) (g : Gateway) :
    run i (items.flatMap steps) g = (items.foldl act g, true) := by
  induction items generalizing g with
  | nil => rfl
  | cons a items ih => rw [List.flatMap_cons, run_append_of_run (h a g), ih, List.foldl_cons]

/-- The first commands of a script succeed on every gateway. -/
theorem run_reset : run i Script.reset.steps g = (g.reset i, true) := by
  rw [Script.steps_reset, run_append_of_run (run_flatMap i (fun h g => run_hook_steps i g h) _ g),
    run_flatMap i fun d g => run_direction_steps i g d]
  rfl

end steps

section reset

theorem chain_rehook (h h' : Hook) :
    (g.rehook i h).chain h'.table h'.chain =
      if h' = h then some [] else g.chain h'.table h'.chain := by
  rw [rehook, chain_setChain, if_neg fun heq => h'.chain_ne_forward heq.2, chain_setChain]
  refine if_congr ⟨fun heq => Hook.chain_injective heq.2, ?_⟩ rfl rfl
  rintro rfl
  exact ⟨rfl, rfl⟩

theorem forwardRules_rehook (h : Hook) (table : String) :
    (g.rehook i h).forwardRules table =
      if table = h.table then (g.forwardRules h.table).erase (h.words i) ++ [h.words i]
      else g.forwardRules table := by
  rw [forwardRules, rehook, chain_setChain]
  by_cases htable : table = h.table
  · rw [if_pos ⟨htable, rfl⟩, if_pos htable]
    rfl
  · rw [if_neg fun heq => htable heq.1, if_neg htable, chain_setChain,
      if_neg fun heq => htable heq.1]
    rfl

theorem hookCount_rehook (h h' : Hook) :
    (g.rehook i h).hookCount i h' =
      if h' = h then g.hookCount i h - 1 + 1 else g.hookCount i h' := by
  rw [hookCount, forwardRules_rehook]
  by_cases hh : h' = h
  · subst hh
    rw [if_pos rfl, if_pos rfl, List.count_append, List.count_erase_self, List.count_singleton_self,
      hookCount]
  · have hwords : h.words i ≠ h'.words i := fun heq => hh (Hook.words_injective i heq).symm
    rw [if_neg hh]
    split
    · rename_i htable
      rw [List.count_append, List.count_erase_of_ne hwords.symm, List.count_singleton,
        if_neg (by simpa using hwords), Nat.add_zero, hookCount, htable]
    · rfl

theorem chain_reset (h : Hook) : (g.reset i).chain h.table h.chain = some [] := by
  have htrees : (g.reset i).chain = (Hook.all.foldl (rehook i) g).chain := rfl
  rw [htrees]
  cases h <;> simp [Hook.all, chain_rehook]

/-- A chain that was hooked in at most once is hooked in once. -/
theorem hookCount_reset (h : Hook) : (g.reset i).hookCount i h = g.hookCount i h - 1 + 1 := by
  have htrees : (g.reset i).hookCount i h = (Hook.all.foldl (rehook i) g).hookCount i h := rfl
  rw [htrees]
  cases h <;> simp [Hook.all, hookCount_rehook]

theorem tree_reset (d : Direction) :
    (g.reset i).tree (i.word d.device) = some (.bare Direction.rootOptions) := by
  cases d <;> simp [reset, Direction.all, Direction.device, reroot]

end reset

end Gateway

end TrafficWarden
