import TrafficWarden.Proofs.WrittenScripts

/-!
# What a script changes

Each command of a script is read as a change: of a chain in a table of the packet filter, or of the
queues of a device. The reading takes the words of the command alone.
-/

namespace TrafficWarden

/-- A change of the gateway. -/
inductive Change where
  | newChain (table chain : String)
  | flush (table chain : String)
  | deleteRule (table chain : String) (rule : List ScriptWord)
  | appendRule (table chain : String) (rule : List ScriptWord)
  | deleteRoot (device : ScriptWord)
  | addRoot (device : ScriptWord) (options : List String)
  | addClass (device : ScriptWord) (options : List String)
  | addFilter (device : ScriptWord) (options : List String)
deriving DecidableEq, Repr

namespace Change

def readChain (table : String) : List ScriptWord → Option Change
  | [.literal "-N", .literal chain] => some (.newChain table chain)
  | [.literal "-F", .literal chain] => some (.flush table chain)
  | .literal "-D" :: .literal chain :: rule => some (.deleteRule table chain rule)
  | .literal "-A" :: .literal chain :: rule => some (.appendRule table chain rule)
  | _ => none

def readQueue (kind verb : String) (device : ScriptWord) : List String → Option Change
  | "root" :: options =>
    if kind ≠ "qdisc" then none
    else if verb = "add" then some (.addRoot device options)
    else if verb = "del" ∧ options = [] then some (.deleteRoot device)
    else none
  | options =>
    if verb ≠ "add" then none
    else if kind = "class" then some (.addClass device options)
    else if kind = "filter" then some (.addFilter device options)
    else none

/-- The device whose queues are changed. -/
def device? : Change → Option ScriptWord
  | .deleteRoot device | .addRoot device _ | .addClass device _ | .addFilter device _ => some device
  | _ => none

/-- The rule that is appended to a chain. -/
def appended? (table chain : String) : Change → Option (List ScriptWord)
  | .appendRule t c rule => if t = table ∧ c = chain then some rule else none
  | _ => none

/-- The options of the class that is added to a device. -/
def addedClass? (device : ScriptWord) : Change → Option (List String)
  | .addClass d options => if d = device then some options else none
  | _ => none

/-- The options of the filter that is added to a device. -/
def addedFilter? (device : ScriptWord) : Change → Option (List String)
  | .addFilter d options => if d = device then some options else none
  | _ => none

theorem device?_of_addedClass? {device : ScriptWord} {change : Change} {options : List String}
    (h : change.addedClass? device = some options) : change.device? = some device := by
  cases change with
  | addClass d o => exact congrArg some (Option.ite_none_right_eq_some.mp h).1
  | _ => exact absurd h (by simp [addedClass?])

theorem device?_of_addedFilter? {device : ScriptWord} {change : Change} {options : List String}
    (h : change.addedFilter? device = some options) : change.device? = some device := by
  cases change with
  | addFilter d o => exact congrArg some (Option.ite_none_right_eq_some.mp h).1
  | _ => exact absurd h (by simp [addedFilter?])

/-- The change that a command asks for. -/
def read? : List ScriptWord → Option Change
  | .literal "iptables" :: .literal "-t" :: .literal table :: words => readChain table words
  | .literal "tc" :: .literal kind :: .literal verb :: .literal "dev" :: device :: words =>
    (Script.literalsOf words).bind (readQueue kind verb device)
  | _ => none

end Change

namespace Script

/-- The changes that a script asks for, in order. -/
def changes (s : Script) : List Change := s.commands.filterMap Change.read?

/-- The changes of the queues of a device, in order. -/
def queue (s : Script) (device : ScriptWord) : List Change :=
  s.changes.filter (·.device? = some device)

/-- The rules that are appended to a chain, in order. -/
def appended (s : Script) (table chain : String) : List (List ScriptWord) :=
  s.changes.filterMap (Change.appended? table chain)

@[simp] theorem changes_append (s t : Script) : changes (s ++ t) = changes s ++ changes t := by
  simp [changes]

@[simp] theorem queue_append (s t : Script) (device : ScriptWord) :
    queue (s ++ t) device = queue s device ++ queue t device := by
  simp [queue]

section reading

variable (place : Nat) (device : ScriptWord)

/-- The words after the device of the command for a class. -/
def classOptions (cap : Option UInt32) (priority : Option Priority) : List String :=
  ["parent", "1:", "classid", "1:" ++ hex place, "htb"] ++ rateWords cap ++ tierWords priority

/-- The words after the device of the command for a filter. -/
def filterOptions : List String :=
  ["parent", "1:", "protocol", "ip", "handle", "0x" ++ hex place, "fw", "flowid", "1:" ++ hex place]

theorem read?_classCommand (cap : Option UInt32) (priority : Option Priority) :
    Change.read? (classCommand place device cap priority) =
      some (.addClass device (classOptions place cap priority)) := by
  have hwords : classCommand place device cap priority =
      .literal "tc" :: .literal "class" :: .literal "add" :: .literal "dev" :: device ::
        literals (classOptions place cap priority) := rfl
  rw [hwords, Change.read?, literalsOf_literals]
  rfl

theorem read?_filterCommand :
    Change.read? (filterCommand place device) = some (.addFilter device (filterOptions place)) := by
  have hwords : filterCommand place device = .literal "tc" :: .literal "filter" ::
      .literal "add" :: .literal "dev" :: device :: literals (filterOptions place) := rfl
  rw [hwords, Change.read?, literalsOf_literals]
  rfl

theorem read?_ruleCommand (table chain : String) (r : Rule) (target : List String) :
    Change.read? (ruleCommand table chain r target) =
      some (.appendRule table chain (literals (r.words ++ target))) := by
  have hwords : ruleCommand table chain r target = .literal "iptables" :: .literal "-t" ::
      .literal table :: .literal "-A" :: .literal chain :: literals (r.words ++ target) := by
    simp [ruleCommand, literals]
  rw [hwords]
  rfl

/-- The change that appends a rule with a target to a chain. -/
def ruleChange (table chain : String) (target : List String) (r : Rule) : Change :=
  .appendRule table chain (literals (r.words ++ target))

theorem filterMap_read?_ruleCommand (table chain : String) (target : List String)
    (rules : List Rule) :
    (rules.map (ruleCommand table chain · target)).filterMap Change.read? =
      rules.map (ruleChange table chain target) := by
  rw [List.filterMap_map, ← List.filterMap_eq_map]
  exact List.filterMap_congr fun r _ => read?_ruleCommand table chain r target

theorem changes_blocking (rules : List Rule) :
    changes (blocking rules) = rules.map (ruleChange "filter" blockChain ["-j", "DROP"]) := by
  rw [changes, commands_blocking, filterMap_read?_ruleCommand]

theorem changes_shaping (chain : String) (cap : Option UInt32) (priority : Option Priority)
    (rules : List Rule) :
    changes (shaping place device chain cap priority rules) =
      .addClass device (classOptions place cap priority) ::
        rules.map (ruleChange "mangle" chain (markTarget place)) ++
          [.addFilter device (filterOptions place)] := by
  rw [changes, commands_shaping, List.filterMap_append, List.filterMap_cons,
    read?_classCommand, filterMap_read?_ruleCommand, List.filterMap_cons, read?_filterCommand]
  rfl

end reading

section policy

variable (place : Nat) (c : CompiledPolicy)

/-- The changes of the policy at a place for one direction. -/
def shapingChanges (d : Direction) : List Change :=
  if d.shapes c.policy then
    .addClass d.device (classOptions place (d.cap c.policy) c.policy.priority) ::
      (d.rules c.rules).map (ruleChange "mangle" d.chain (markTarget place)) ++
        [.addFilter d.device (filterOptions place)]
  else []

theorem changes_direction (d : Direction) :
    changes (direction place d.device d.chain (d.cap c.policy) c.policy.priority
      (d.rules c.rules)) = shapingChanges place c d := by
  rw [direction_eq, shapingChanges, Direction.shapes]
  split
  · exact changes_shaping place d.device d.chain _ _ _
  · rfl

/-- What the section of a policy changes. -/
theorem changes_policySection :
    changes (policySection place c) =
      if c.policy.isBlocking then
        c.rules.rules.map (ruleChange "filter" blockChain ["-j", "DROP"])
      else shapingChanges place c .upload ++ shapingChanges place c .download := by
  have hcommands : changes (policySection place c) = changes (policyCommands place c) := rfl
  rw [hcommands, policyCommands]
  split
  · exact changes_blocking c.rules.rules
  · rw [changes_append]
    exact congrArg₂ (· ++ ·) (changes_direction place c .upload)
      (changes_direction place c .download)

/-- A change that the policy at a place asks for. -/
inductive PolicyChange : Change → Prop
  | drop (h : c.policy.isBlocking = true) (r : Rule) :
    PolicyChange (ruleChange "filter" blockChain ["-j", "DROP"] r)
  | queueClass (d : Direction) (h : d.shapes c.policy = true) :
    PolicyChange (.addClass d.device (classOptions place (d.cap c.policy) c.policy.priority))
  | mark (d : Direction) (h : d.shapes c.policy = true) (r : Rule) :
    PolicyChange (ruleChange "mangle" d.chain (markTarget place) r)
  | queueFilter (d : Direction) (h : d.shapes c.policy = true) :
    PolicyChange (.addFilter d.device (filterOptions place))

variable {place c}

theorem policyChange_of_mem_shapingChanges {d : Direction} {change : Change}
    (h : change ∈ shapingChanges place c d) : PolicyChange place c change := by
  unfold shapingChanges at h
  split at h
  · rename_i hshapes
    simp only [List.cons_append, List.mem_cons, List.mem_append, List.mem_map, List.not_mem_nil,
      or_false] at h
    rcases h with rfl | ⟨r, -, rfl⟩ | rfl
    · exact .queueClass d hshapes
    · exact .mark d hshapes r
    · exact .queueFilter d hshapes
  · exact absurd h List.not_mem_nil

theorem policyChange_of_mem {change : Change} (h : change ∈ changes (policySection place c)) :
    PolicyChange place c change := by
  rw [changes_policySection] at h
  split at h
  · rename_i hblocks
    obtain ⟨r, -, rfl⟩ := List.mem_map.mp h
    exact .drop hblocks r
  · rcases List.mem_append.mp h with h | h
    · exact policyChange_of_mem_shapingChanges h
    · exact policyChange_of_mem_shapingChanges h

end policy

section plan

theorem changes_policySections (place : Nat) (cs : List CompiledPolicy) :
    changes (policySections place cs) =
      (cs.zipIdx place).flatMap fun (c, n) => changes (policySection n c) := by
  induction cs generalizing place with
  | nil => rfl
  | cons c cs ih => rw [policySections, changes_append, ih, List.zipIdx_cons, List.flatMap_cons]

/-- A script resets the gateway, and then takes its policies in order. -/
theorem changes_ofPlan (p : Plan) :
    changes (ofPlan p) =
      changes reset ++ (p.policies.zipIdx 1).flatMap fun (c, n) => changes (policySection n c) := by
  rw [ofPlan, changes_append, changes_append, changes_policySections]
  rfl

theorem isSome_read?_direction (place : Nat) (device : ScriptWord) (chain : String)
    (cap : Option UInt32) (priority : Option Priority) (rules : List Rule) :
    ∀ words ∈ commands (direction place device chain cap priority rules),
      (Change.read? words).isSome = true := by
  intro words hwords
  rw [direction_eq] at hwords
  split at hwords
  · simp only [commands_shaping, List.cons_append, List.mem_cons, List.mem_append, List.mem_map,
      List.not_mem_nil, or_false] at hwords
    rcases hwords with rfl | ⟨r, -, rfl⟩ | rfl
    · exact Option.isSome_of_eq_some (read?_classCommand ..)
    · exact Option.isSome_of_eq_some (read?_ruleCommand ..)
    · exact Option.isSome_of_eq_some (read?_filterCommand ..)
  · exact absurd hwords List.not_mem_nil

theorem isSome_read?_policySections (place : Nat) (cs : List CompiledPolicy) :
    ∀ words ∈ commands (policySections place cs), (Change.read? words).isSome = true := by
  induction cs generalizing place with
  | nil => exact fun _ hwords => absurd hwords List.not_mem_nil
  | cons c cs ih =>
    rw [policySections, commands_append, commands_policySection, policyCommands]
    refine List.forall_mem_append.mpr ⟨fun words hwords => ?_, ih (place + 1)⟩
    split at hwords
    · rw [commands_blocking] at hwords
      obtain ⟨r, -, rfl⟩ := List.mem_map.mp hwords
      exact Option.isSome_of_eq_some (read?_ruleCommand ..)
    · rw [commands_append] at hwords
      rcases List.mem_append.mp hwords with hwords | hwords
      · exact isSome_read?_direction _ _ _ _ _ _ words hwords
      · exact isSome_read?_direction _ _ _ _ _ _ words hwords

/-- Every command of a script is read as a change. -/
theorem isSome_read?_ofPlan (p : Plan) :
    ∀ words ∈ commands (ofPlan p), (Change.read? words).isSome = true := by
  have hreset : ∀ words ∈ commands reset, (Change.read? words).isSome = true := by decide
  rw [ofPlan, commands_append, commands_append, commands_header, List.nil_append]
  exact List.forall_mem_append.mpr ⟨hreset, isSome_read?_policySections 1 p.policies⟩

end plan

end Script

namespace Plan

variable (p : Plan)

theorem changes_written : p.written.changes = (Script.ofPlan p).changes := by
  rw [Script.changes, commands_written, Script.changes]

theorem changes_written_upTo_zero : (p.upTo 0).written.changes = Script.reset.changes := by
  rw [changes_written, Script.changes_ofPlan]
  exact List.append_nil _

/-- The policy at a place adds the changes of its section. -/
theorem changes_added {c : CompiledPolicy} {place : Nat} (h : (c, place) ∈ p.policies.zipIdx 1) :
    (p.added place).changes = (Script.policySection place c).changes := by
  rw [p.added_of_mem h]
  rfl

/-- The changes of a plan are those of the script without policies, and then those that each policy
adds. -/
theorem changes_written_eq_added :
    p.written.changes = (p.upTo 0).written.changes ++
      (p.policies.zipIdx 1).flatMap fun (_, n) => (p.added n).changes := by
  rw [changes_written, changes_written_upTo_zero, Script.changes_ofPlan]
  exact congrArg _ (List.flatMap_congr fun e he => (p.changes_added he).symm)

end Plan

end TrafficWarden
