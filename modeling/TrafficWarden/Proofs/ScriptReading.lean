import TrafficWarden.Script
import TrafficWarden.Proofs.RuleWords

/-!
# Reading a script as a packet filter

What the commands of a script set up, read from their words alone: the rules that are appended to a
chain, the chains that forwarded packets enter, and the filters of a device, which choose a class by
the mark of a packet. Every other command adds nothing to these.
-/

namespace TrafficWarden

/-- What becomes of the packets of a rule. -/
inductive Verdict where
  | mark (n : Nat)
  | drop
deriving DecidableEq, Repr

structure ChainRule where
  flags : List (Flag × FlagValue)
  verdict : Verdict
deriving DecidableEq, Repr

def ChainRule.accepts (r : ChainRule) (p : Packet) : Bool := r.flags.all fun (f, v) => f.accepts v p

/-- A filter of a device: the packets of a mark are queued in a class. -/
structure MarkFilter where
  mark : Nat
  flow : String
deriving DecidableEq, Repr

namespace Script

/-- Reads a mark in hexadecimal digits. -/
def readMark (text : String) : Option Nat :=
  match text.toList with
  | '0' :: 'x' :: digits => Text.readNumeral 16 digits
  | _ => none

@[simp] theorem readMark_hex (n : Nat) : readMark ("0x" ++ hex n) = some n := by
  simp [readMark, hex, Text.readNumeral_toDigits]

def readVerdict : List String → Option Verdict
  | ["-j", "DROP"] => some .drop
  | ["-j", "MARK", "--set-mark", m] => (readMark m).map .mark
  | _ => none

def readChainRule (words : List String) : Option ChainRule :=
  (readVerdict (Rule.readFlags words).2).map (⟨(Rule.readFlags words).1, ·⟩)

/-- Words without quotes that are no interface. -/
def literalsOf : List ScriptWord → Option (List String)
  | [] => some []
  | .literal s :: rest => (literalsOf rest).map (s :: ·)
  | _ => none

@[simp] theorem literalsOf_literals (words : List String) :
    literalsOf (literals words) = some words := by
  induction words with
  | nil => rfl
  | cons s words ih => simpa [literals, literalsOf] using ih

/-- The rule that a command appends to a chain. -/
def chainRule? (table chain : String) : List ScriptWord → Option ChainRule
  | .literal "iptables" :: .literal "-t" :: .literal t :: .literal "-A" :: .literal c :: rest =>
    if t = table ∧ c = chain then (literalsOf rest).bind readChainRule else none
  | _ => none

/-- The chain that a command lets forwarded packets enter, if they leave by the device. -/
def hook? (table : String) (device : ScriptWord) : List ScriptWord → Option String
  | [.literal "iptables", .literal "-t", .literal t, .literal "-A", .literal "FORWARD",
      .literal "-o", d, .literal "-j", .literal chain] =>
    if t = table ∧ d = device then some chain else none
  | [.literal "iptables", .literal "-t", .literal t, .literal "-A", .literal "FORWARD",
      .literal "-j", .literal chain] => if t = table then some chain else none
  | _ => none

/-- The filter that a command adds to a device. -/
def filter? (device : ScriptWord) : List ScriptWord → Option MarkFilter
  | [.literal "tc", .literal "filter", .literal "add", .literal "dev", d, .literal "parent",
      .literal "1:", .literal "protocol", .literal "ip", .literal "handle", .literal m,
      .literal "fw", .literal "flowid", .literal flow] =>
    if d = device then (readMark m).map (⟨·, flow⟩) else none
  | _ => none

/-- The words of the commands of a script. -/
def commands (s : Script) : List (List ScriptWord) :=
  s.filterMap fun
    | .run c => some c.words
    | _ => none

/-- The rules of a chain, in order. -/
def chain (s : Script) (table chain : String) : List ChainRule :=
  s.commands.filterMap (chainRule? table chain)

/-- The chains that packets which leave by a device enter, in order. -/
def entered (s : Script) (table : String) (device : ScriptWord) : List String :=
  s.commands.filterMap (hook? table device)

def filters (s : Script) (device : ScriptWord) : List MarkFilter :=
  s.commands.filterMap (filter? device)

@[simp] theorem commands_append (s t : Script) : commands (s ++ t) = commands s ++ commands t := by
  simp [commands]

@[simp] theorem commands_must (words : List ScriptWord) (s : Script) :
    commands (.must words :: s) = words :: commands s := rfl

@[simp] theorem commands_may (words : List ScriptWord) (s : Script) :
    commands (.may words :: s) = words :: commands s := rfl

@[simp] theorem commands_nil : commands [] = [] := rfl

@[simp] theorem commands_blank (s : Script) : commands (.blank :: s) = commands s := rfl

@[simp] theorem commands_comment (text : String) (s : Script) :
    commands (.comment text :: s) = commands s := rfl

@[simp] theorem commands_header (p : Plan) : commands (header p) = [] := rfl

@[simp] theorem chain_append (s t : Script) (table name : String) :
    chain (s ++ t) table name = chain s table name ++ chain t table name := by
  simp [chain]

@[simp] theorem filters_append (s t : Script) (device : ScriptWord) :
    filters (s ++ t) device = filters s device ++ filters t device := by
  simp [filters]

@[simp] theorem entered_append (s t : Script) (table : String) (device : ScriptWord) :
    entered (s ++ t) table device = entered s table device ++ entered t table device := by
  simp [entered]

theorem commands_map_must {α : Type} (f : α → List ScriptWord) (items : List α) :
    commands (items.map fun a => .must (f a)) = items.map f := by
  induction items with
  | nil => rfl
  | cons a items ih => rw [List.map_cons, commands_must, ih, List.map_cons]

/-- The words for the rate of a class. -/
def rateWords : Option UInt32 → List String
  | none => ["rate", uncappedRate]
  | some kbps => ["rate", toString kbps.toNat ++ "kbit"]

/-- The words for the priority of a class. -/
def tierWords : Option Priority → List String
  | none => []
  | some p => ["prio", toString p.value]

def classCommand (place : Nat) (device : ScriptWord) (cap : Option UInt32)
    (priority : Option Priority) : List ScriptWord :=
  literals ["tc", "class", "add", "dev"] ++ device ::
    literals (["parent", "1:", "classid", "1:" ++ hex place, "htb"] ++ rateWords cap ++
      tierWords priority)

def ruleCommand (table name : String) (r : Rule) (target : List String) : List ScriptWord :=
  literals (["iptables", "-t", table, "-A", name] ++ r.words ++ target)

def markTarget (place : Nat) : List String := ["-j", "MARK", "--set-mark", "0x" ++ hex place]

def filterCommand (place : Nat) (device : ScriptWord) : List ScriptWord :=
  literals ["tc", "filter", "add", "dev"] ++ device ::
    literals ["parent", "1:", "protocol", "ip", "handle", "0x" ++ hex place, "fw", "flowid",
      "1:" ++ hex place]

theorem commands_shaping (place : Nat) (device : ScriptWord) (name : String) (cap : Option UInt32)
    (priority : Option Priority) (rules : List Rule) :
    commands (shaping place device name cap priority rules) =
      classCommand place device cap priority ::
        rules.map (ruleCommand "mangle" name · (markTarget place)) ++
          [filterCommand place device] := by
  unfold shaping
  rw [List.cons_append, commands_must, commands_append, commands_map_must, commands_must,
    commands_nil, List.cons_append]
  cases cap <;> cases priority <;> rfl

theorem commands_blocking (rules : List Rule) :
    commands (blocking rules) = rules.map (ruleCommand "filter" blockChain · ["-j", "DROP"]) :=
  commands_map_must _ rules

section reading

variable {r : Rule} (table name : String) (d : ScriptWord)

/-- A command that appends a rule is read as that rule, for its own table and chain. -/
theorem chainRule?_ruleCommand (t c : String) (hr : r.Every Flag.Carries) {target : List String}
    {verdict : Verdict} (hv : readVerdict target = some verdict)
    (ht : Rule.readFlags target = ([], target)) :
    chainRule? table name (ruleCommand t c r target) =
      if t = table ∧ c = name then some ⟨r.toList, verdict⟩ else none := by
  have hread : readChainRule (r.words ++ target) = some ⟨r.toList, verdict⟩ := by
    rw [readChainRule, Rule.readFlags_words hr ht, hv]
    rfl
  have hwords : ruleCommand t c r target = .literal "iptables" :: .literal "-t" :: .literal t ::
      .literal "-A" :: .literal c :: literals (r.words ++ target) := by
    simp [ruleCommand, literals]
  rw [hwords, chainRule?, literalsOf_literals, Option.bind_some, hread]

/-- Commands that append rules to one chain are read as these rules. -/
theorem filterMap_ruleCommand (t c : String) {rules : List Rule}
    (hrules : ∀ r ∈ rules, r.Every Flag.Carries) {target : List String} {verdict : Verdict}
    (hv : readVerdict target = some verdict) (ht : Rule.readFlags target = ([], target)) :
    (rules.map (ruleCommand t c · target)).filterMap (chainRule? table name) =
      if t = table ∧ c = name then rules.map fun r => ⟨r.toList, verdict⟩ else [] := by
  induction rules with
  | nil => simp
  | cons r rules ih =>
    obtain ⟨hr, htail⟩ := List.forall_mem_cons.mp hrules
    rw [List.map_cons, List.filterMap_cons, chainRule?_ruleCommand table name t c hr hv ht, ih htail]
    by_cases h : t = table ∧ c = name
    · simp [h]
    · simp [h]

theorem filter?_ruleCommand (t c : String) (target : List String) :
    filter? d (ruleCommand t c r target) = none := by
  simp [filter?, ruleCommand, literals]

theorem hook?_ruleCommand (t c : String) (target : List String) (hc : c ≠ "FORWARD") :
    hook? table d (ruleCommand t c r target) = none := by
  simp only [ruleCommand, literals, List.cons_append, List.nil_append, List.map_cons]
  unfold hook?
  split <;> simp_all

theorem chainRule?_classCommand (place : Nat) (device : ScriptWord) (cap : Option UInt32)
    (priority : Option Priority) :
    chainRule? table name (classCommand place device cap priority) = none := by
  simp [chainRule?, classCommand, literals]

theorem filter?_classCommand (place : Nat) (device : ScriptWord) (cap : Option UInt32)
    (priority : Option Priority) : filter? d (classCommand place device cap priority) = none := by
  simp only [classCommand, literals, List.map_cons, List.map_nil, List.cons_append,
    List.nil_append]
  unfold filter?
  split <;> simp_all

theorem hook?_classCommand (place : Nat) (device : ScriptWord) (cap : Option UInt32)
    (priority : Option Priority) :
    hook? table d (classCommand place device cap priority) = none := by
  simp [hook?, classCommand, literals]

theorem chainRule?_filterCommand (place : Nat) (device : ScriptWord) :
    chainRule? table name (filterCommand place device) = none := by
  simp [chainRule?, filterCommand, literals]

theorem filter?_filterCommand (place : Nat) (device : ScriptWord) :
    filter? d (filterCommand place device) =
      if device = d then some ⟨place, "1:" ++ hex place⟩ else none := by
  simp [filter?, filterCommand, literals]

theorem hook?_filterCommand (place : Nat) (device : ScriptWord) :
    hook? table d (filterCommand place device) = none := by
  simp [hook?, filterCommand, literals]

end reading

section shaping

variable (place : Nat) (device : ScriptWord) (name : String) (cap : Option UInt32)
  (priority : Option Priority) {rules : List Rule}

theorem chain_shaping (hrules : ∀ r ∈ rules, r.Every Flag.Carries) (table other : String) :
    chain (shaping place device name cap priority rules) table other =
      if "mangle" = table ∧ name = other then rules.map fun r => ⟨r.toList, .mark place⟩
      else [] := by
  rw [chain, commands_shaping, List.cons_append,
    List.filterMap_cons_none (chainRule?_classCommand ..), List.filterMap_append,
    List.filterMap_cons_none (chainRule?_filterCommand ..), List.filterMap_nil, List.append_nil]
  exact filterMap_ruleCommand table other "mangle" name hrules (by simp [markTarget, readVerdict])
    (by simp [markTarget, Rule.readFlags])

theorem filters_shaping (rules : List Rule) (d : ScriptWord) :
    filters (shaping place device name cap priority rules) d =
      if device = d then [⟨place, "1:" ++ hex place⟩] else [] := by
  have hrules : (rules.map (ruleCommand "mangle" name · (markTarget place))).filterMap (filter? d) =
      [] := by
    rw [List.filterMap_map]
    exact List.filterMap_eq_nil_iff.mpr fun r _ => filter?_ruleCommand d "mangle" name _
  rw [filters, commands_shaping, List.cons_append,
    List.filterMap_cons_none (filter?_classCommand ..), List.filterMap_append, hrules,
    List.nil_append, List.filterMap_cons, filter?_filterCommand]
  split <;> simp_all

theorem entered_shaping (hname : name ≠ "FORWARD") (rules : List Rule) (table : String)
    (d : ScriptWord) : entered (shaping place device name cap priority rules) table d = [] := by
  rw [entered, commands_shaping]
  refine List.filterMap_eq_nil_iff.mpr fun words hwords => ?_
  simp only [List.cons_append, List.mem_cons, List.mem_append, List.mem_map, List.not_mem_nil,
    or_false] at hwords
  rcases hwords with rfl | ⟨r, -, rfl⟩ | rfl
  · exact hook?_classCommand ..
  · exact hook?_ruleCommand table d "mangle" name _ hname
  · exact hook?_filterCommand ..

end shaping

section blocking

variable {rules : List Rule}

theorem chain_blocking (hrules : ∀ r ∈ rules, r.Every Flag.Carries) (table other : String) :
    chain (blocking rules) table other =
      if "filter" = table ∧ blockChain = other then rules.map fun r => ⟨r.toList, .drop⟩
      else [] := by
  rw [chain, commands_blocking]
  exact filterMap_ruleCommand table other "filter" blockChain hrules rfl (by simp [Rule.readFlags])

theorem filters_blocking (rules : List Rule) (d : ScriptWord) : filters (blocking rules) d = [] := by
  rw [filters, commands_blocking, List.filterMap_map]
  exact List.filterMap_eq_nil_iff.mpr fun r _ => filter?_ruleCommand d "filter" blockChain _

theorem entered_blocking (rules : List Rule) (table : String) (d : ScriptWord) :
    entered (blocking rules) table d = [] := by
  rw [entered, commands_blocking, List.filterMap_map]
  exact List.filterMap_eq_nil_iff.mpr fun r _ =>
    hook?_ruleCommand table d "filter" blockChain _ (by decide)

end blocking

section reset

theorem chain_reset (table : String) {name : String} (hname : name ≠ "FORWARD") :
    chain reset table name = [] := by
  have := hname.symm
  simp [chain, reset, resetChain, resetQueue, literals, chainRule?, this]

theorem filters_reset (d : ScriptWord) : filters reset d = [] := by
  simp [filters, reset, resetChain, resetQueue, literals, filter?]

theorem entered_reset :
    entered reset "mangle" .outside = [uploadChain] ∧
      entered reset "mangle" .inside = [downloadChain] ∧
        ∀ d, entered reset "filter" d = [blockChain] := by
  refine ⟨by decide, by decide, fun d => ?_⟩
  simp [entered, reset, resetChain, resetQueue, literals, hook?]

end reset

end Script

end TrafficWarden
