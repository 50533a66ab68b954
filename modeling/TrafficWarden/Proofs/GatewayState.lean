import TrafficWarden.Proofs.QueueClasses

/-!
# The gateway under a script

The commands of a script run over the chains of the packet filter and the queues of the devices. A
chain is made only if there is none of its name, a rule is deleted where it occurs first, and a root
queue goes with all that is below it. A command that fails changes nothing, and ends the script
unless it is tolerated.
-/

namespace TrafficWarden

/-- The queues of a device, as the options of its root and of the classes and filters below it. -/
structure QueueTree where
  root : List String
  classes : List (List String)
  filters : List (List String)
deriving DecidableEq, Repr

namespace QueueTree

/-- A root without classes and filters. -/
def bare (options : List String) : QueueTree := ⟨options, [], []⟩

def handle (t : QueueTree) : Option String := optionOf "handle" t.root

/-- A class can be added below the root, if its identity is not taken. -/
def admitsClass (t : QueueTree) (options : List String) : Bool :=
  optionOf "parent" options = t.handle &&
    !(t.classes.map (optionOf "classid")).contains (optionOf "classid" options)

/-- A filter can be added to the root. -/
def admitsFilter (t : QueueTree) (options : List String) : Bool :=
  optionOf "parent" options = t.handle

end QueueTree

/-- The chains of the packet filter by table and name, and the queues of the devices. Forwarded
packets have a chain in both tables that a script is about. -/
structure Gateway where
  chain : String → String → Option (List (List String))
  tree : String → Option QueueTree
  forward : ∀ table ∈ ["mangle", "filter"], (chain table "FORWARD").isSome = true

namespace Gateway

def setChain (g : Gateway) (table name : String) (rules : List (List String)) : Gateway where
  chain t n := if t = table ∧ n = name then some rules else g.chain t n
  tree := g.tree
  forward t ht := by
    split
    · rfl
    · exact g.forward t ht

def setTree (g : Gateway) (device : String) (tree : Option QueueTree) : Gateway :=
  { g with tree := fun d => if d = device then tree else g.tree d }

section fields

variable (g : Gateway) (table name device : String) (rules more : List (List String))
  (tree : Option QueueTree)

@[simp] theorem chain_setChain (t n : String) :
    (g.setChain table name rules).chain t n =
      if t = table ∧ n = name then some rules else g.chain t n := rfl

@[simp] theorem tree_setChain : (g.setChain table name rules).tree = g.tree := rfl

@[simp] theorem chain_setTree : (g.setTree device tree).chain = g.chain := rfl

@[simp] theorem tree_setTree (d : String) :
    (g.setTree device tree).tree d = if d = device then tree else g.tree d := rfl

theorem ext {g g' : Gateway} (hchain : g.chain = g'.chain) (htree : g.tree = g'.tree) : g = g' := by
  cases g
  cases g'
  cases hchain
  cases htree
  rfl

theorem setChain_setChain :
    (g.setChain table name rules).setChain table name more = g.setChain table name more := by
  refine ext (funext fun t => funext fun n => ?_) rfl
  by_cases h : t = table ∧ n = name
  · simp [h]
  · simp [h]

theorem setChain_eq_self {g : Gateway} {table name : String} {rules : List (List String)}
    (h : g.chain table name = some rules) : g.setChain table name rules = g := by
  refine ext (funext fun t => funext fun n => ?_) rfl
  rw [chain_setChain]
  split
  · rename_i heq
    rw [heq.1, heq.2, h]
  · rfl

theorem setTree_setTree (other : Option QueueTree) :
    (g.setTree device tree).setTree device other = g.setTree device other := by
  refine ext rfl (funext fun d => ?_)
  by_cases h : d = device
  · simp [h]
  · simp [h]

theorem setTree_eq_self {g : Gateway} {device : String} {tree : Option QueueTree}
    (h : g.tree device = tree) : g.setTree device tree = g := by
  refine ext rfl (funext fun d => ?_)
  rw [tree_setTree]
  split
  · rename_i heq
    rw [heq, h]
  · rfl

end fields

end Gateway

/-- What a word of a command stands for. -/
def Interfaces.word (i : Interfaces) : ScriptWord → String
  | .literal s => s
  | .outside => i.outside
  | .inside => i.inside

/-- The gateway after a change, if the change is possible. -/
def Change.apply (i : Interfaces) (g : Gateway) : Change → Option Gateway
  | .newChain table name =>
    if (g.chain table name).isSome then none else some (g.setChain table name [])
  | .flush table name => (g.chain table name).map fun _ => g.setChain table name []
  | .deleteRule table name rule =>
    (g.chain table name).bind fun rules =>
      if rule.map i.word ∈ rules then
        some (g.setChain table name (rules.erase (rule.map i.word)))
      else none
  | .appendRule table name rule =>
    (g.chain table name).map fun rules => g.setChain table name (rules ++ [rule.map i.word])
  | .deleteRoot device =>
    (g.tree (i.word device)).map fun _ => g.setTree (i.word device) none
  | .addRoot device options =>
    if (g.tree (i.word device)).isSome then none
    else some (g.setTree (i.word device) (some (.bare options)))
  | .addClass device options =>
    (g.tree (i.word device)).bind fun t =>
      if t.admitsClass options then
        some (g.setTree (i.word device) (some { t with classes := t.classes ++ [options] }))
      else none
  | .addFilter device options =>
    (g.tree (i.word device)).bind fun t =>
      if t.admitsFilter options then
        some (g.setTree (i.word device) (some { t with filters := t.filters ++ [options] }))
      else none

/-- The change that a command asks for. -/
def Command.change? (c : Command) : Option Change := Change.read? c.words

namespace Gateway

/-- The gateway after a command, and whether the script goes on. -/
def execute (i : Interfaces) (g : Gateway) (c : Command) : Gateway × Bool :=
  match c.change?.bind (·.apply i g) with
  | some g' => (g', true)
  | none => (g, c.tolerated)

/-- The gateway after some commands, and whether none of them ended the script. -/
def run (i : Interfaces) : List Command → Gateway → Gateway × Bool
  | [], g => (g, true)
  | c :: cs, g =>
    if (g.execute i c).2 then run i cs (g.execute i c).1 else g.execute i c

section run

variable {i : Interfaces}

theorem execute_of_apply {g g' : Gateway} {c : Command} {change : Change}
    (hc : c.change? = some change) (h : change.apply i g = some g') :
    g.execute i c = (g', true) := by
  rw [execute, hc, Option.bind_some, h]

theorem execute_of_not_apply {g : Gateway} {c : Command} {change : Change}
    (hc : c.change? = some change) (h : change.apply i g = none) :
    g.execute i c = (g, c.tolerated) := by
  rw [execute, hc, Option.bind_some, h]

/-- A command changes nothing, or makes its change. -/
theorem execute_cases (g : Gateway) (c : Command) :
    (g.execute i c).1 = g ∨
      ∃ change, c.change? = some change ∧ change.apply i g = some (g.execute i c).1 := by
  rw [execute]
  split
  · rename_i g' h
    obtain ⟨change, hchange, happly⟩ := Option.bind_eq_some_iff.mp h
    exact .inr ⟨change, hchange, happly⟩
  · exact .inl rfl

theorem run_cons_of_execute {g g' : Gateway} {c : Command} (h : g.execute i c = (g', true))
    (cs : List Command) : run i (c :: cs) g = run i cs g' := by
  rw [run, h, if_pos rfl]

theorem run_append (cs ds : List Command) (g : Gateway) :
    run i (cs ++ ds) g = if (run i cs g).2 then run i ds (run i cs g).1 else run i cs g := by
  induction cs generalizing g with
  | nil => rfl
  | cons c cs ih =>
    rw [List.cons_append, run, run, ih]
    split
    · rfl
    · rfl

theorem run_append_of_run {cs : List Command} {g g' : Gateway} (h : run i cs g = (g', true))
    (ds : List Command) : run i (cs ++ ds) g = run i ds g' := by
  rw [run_append, h, if_pos rfl]

/-- A property survives every prefix of some commands. -/
def Keeps (i : Interfaces) (P : Gateway → Prop) (cs : List Command) : Prop :=
  ∀ n g, P g → P (run i (cs.take n) g).1

variable {P : Gateway → Prop}

theorem keeps_of_forall {cs : List Command}
    (h : ∀ c ∈ cs, ∀ change, c.change? = some change →
      ∀ g g', change.apply i g = some g' → P g → P g') : Keeps i P cs := by
  induction cs with
  | nil =>
    intro n g hg
    rw [List.take_nil]
    exact hg
  | cons c cs ih =>
    obtain ⟨hc, hcs⟩ := List.forall_mem_cons.mp h
    intro n g hg
    cases n with
    | zero => exact hg
    | succ n =>
      have hexecute : P (g.execute i c).1 := by
        rcases execute_cases (i := i) g c with hsame | ⟨change, hchange, happly⟩
        · rw [hsame]
          exact hg
        · exact hc change hchange g _ happly hg
      rw [List.take_succ_cons, run]
      split
      · exact ih hcs n _ hexecute
      · exact hexecute

theorem Keeps.append {cs ds : List Command} (hcs : Keeps i P cs) (hds : Keeps i P ds) :
    Keeps i P (cs ++ ds) := by
  intro n g hg
  rw [List.take_append, run_append]
  split
  · exact hds _ _ (hcs n g hg)
  · exact hcs n g hg

/-- The last command has to keep the property only after all others. -/
theorem Keeps.concat {cs : List Command} {c : Command} (hcs : Keeps i P cs)
    (hall : ∀ g, P g → P (run i (cs ++ [c]) g).1) : Keeps i P (cs ++ [c]) := by
  intro n g hg
  by_cases hn : n ≤ cs.length
  · rw [List.take_append_of_le_length hn]
    exact hcs n g hg
  · rw [List.take_of_length_le (by simp; omega)]
    exact hall g hg

end run

end Gateway

namespace Script

/-- The commands of a script, in order. -/
def steps (s : Script) : List Command :=
  s.filterMap fun
    | .run c => some c
    | _ => none

theorem steps_append (s t : Script) : (s ++ t).steps = s.steps ++ t.steps := List.filterMap_append

theorem steps_ofPlan (p : Plan) :
    (ofPlan p).steps = reset.steps ++ (policySections 1 p.policies).steps := by
  rw [ofPlan, steps_append, steps_append]
  rfl

theorem commands_eq (s : Script) : s.commands = s.steps.map (·.words) := by
  rw [commands, steps, List.map_filterMap]
  refine List.filterMap_congr fun line _ => ?_
  cases line <;> rfl

theorem changes_eq (s : Script) : s.changes = s.steps.filterMap Command.change? := by
  rw [changes, commands_eq, List.filterMap_map]
  rfl

theorem mem_changes {s : Script} {c : Command} {change : Change} (hc : c ∈ s.steps)
    (hchange : c.change? = some change) : change ∈ s.changes := by
  rw [changes_eq]
  exact List.mem_filterMap.mpr ⟨c, hc, hchange⟩

end Script

end TrafficWarden
