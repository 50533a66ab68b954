import TrafficWarden.Plan
import TrafficWarden.Shell.Word

/-!
# Dispatch scripts

The script of a plan is a list of lines. It sets up three chains of the packet filter and the two
root queues anew, and then takes the policies in order. The policy at place `n`, counted from 1,
marks its packets with `n`, and queues the packets of that mark in the class `1:n`.
-/

namespace TrafficWarden

/-- A word of a command: literal text, or one of the two interfaces that the script names at its
head. -/
inductive ScriptWord where
  | literal (text : String)
  | outside
  | inside
deriving DecidableEq, Repr

/-- A command. The fault of a tolerated command does not end the script. -/
structure Command where
  words : List ScriptWord
  tolerated : Bool
deriving DecidableEq, Repr

inductive ScriptLine where
  | interpreter (path : String)
  | comment (text : String)
  | stopOnFault
  | blank
  | assign (name : String) (value : String)
  | run (command : Command)
deriving DecidableEq, Repr

namespace ScriptWord

def text : ScriptWord → String
  | literal s => Shell.quote s
  | outside => "\"$OUTSIDE\""
  | inside => "\"$INSIDE\""

end ScriptWord

namespace Command

def text (c : Command) : String :=
  " ".intercalate (c.words.map ScriptWord.text) ++
    if c.tolerated then " 2>/dev/null || true" else ""

end Command

namespace ScriptLine

def text : ScriptLine → String
  | interpreter path => "#!" ++ path
  | comment s => "# " ++ s
  | stopOnFault => "set -e"
  | blank => ""
  | assign name value => name ++ "=" ++ Shell.quote value
  | run c => c.text

/-- A command that has to succeed. -/
def must (words : List ScriptWord) : ScriptLine := .run ⟨words, false⟩

/-- A command that may fail. -/
def may (words : List ScriptWord) : ScriptLine := .run ⟨words, true⟩

end ScriptLine

abbrev Script := List ScriptLine

def Script.text (s : Script) : String := String.join (s.map fun line => line.text ++ "\n")

namespace Script

/-- The literal words of a text without quotes. -/
def literals (words : List String) : List ScriptWord := words.map .literal

def uploadChain : String := "NETCOP_UP"
def downloadChain : String := "NETCOP_DOWN"
def blockChain : String := "NETCOP_BLOCK"

/-- The rate of a class without a cap. -/
def uncappedRate : String := "10gbit"

/-- A number in hexadecimal digits. -/
def hex (n : Nat) : String := String.ofList (Nat.toDigits 16 n)

def header (p : Plan) : Script :=
  [.interpreter "/bin/sh",
    .comment ("Generated by netcop at " ++ p.moment.text ++ ". Rewritten on every dispatch."),
    .stopOnFault,
    .blank,
    .assign "OUTSIDE" p.interfaces.outside,
    .assign "INSIDE" p.interfaces.inside,
    .assign "HIGH_PRIORITY_POLICIES" (toString p.highPriorityCount),
    .blank]

/-- Makes an empty chain that is entered from the given place, exactly once. -/
def resetChain (table chain : String) (hook : List ScriptWord) : Script :=
  let onTable (words : List ScriptWord) := literals ["iptables", "-t", table] ++ words
  let jump := hook ++ literals ["-j", chain]
  [.may (onTable (literals ["-N", chain])),
    .must (onTable (literals ["-F", chain])),
    .may (onTable (.literal "-D" :: jump)),
    .must (onTable (.literal "-A" :: jump))]

/-- Makes an empty root queue. -/
def resetQueue (device : ScriptWord) : Script :=
  [.may (literals ["tc", "qdisc", "del", "dev"] ++ device :: literals ["root"]),
    .must (literals ["tc", "qdisc", "add", "dev"] ++
      device :: literals ["root", "handle", "1:", "htb"])]

def reset : Script :=
  .comment "Marking and blocking chains" ::
    (resetChain "mangle" uploadChain (literals ["FORWARD", "-o"] ++ [.outside]) ++
      resetChain "mangle" downloadChain (literals ["FORWARD", "-o"] ++ [.inside]) ++
      resetChain "filter" blockChain (literals ["FORWARD"])) ++
    [.blank, .comment "Root qdiscs"] ++ resetQueue .outside ++ resetQueue .inside

/-- A name on one line. -/
def oneLine (name : String) : String :=
  String.ofList (name.toList.map fun c => if c = '\n' ∨ c = '\r' then ' ' else c)

/-- Drops the packets of the rules. -/
def blocking (rules : List Rule) : Script :=
  rules.map fun r =>
    .must (literals (["iptables", "-t", "filter", "-A", blockChain] ++ r.words ++ ["-j", "DROP"]))

/-- Marks the packets of the rules in one direction, and queues the marked ones in a class of the
device. -/
def shaping (place : Nat) (device : ScriptWord) (chain : String) (cap : Option UInt32)
    (priority : Option Priority) (rules : List Rule) : Script :=
  let mark := "0x" ++ hex place
  let flow := "1:" ++ hex place
  let rate := match cap with
    | none => uncappedRate
    | some kbps => toString kbps.toNat ++ "kbit"
  let tier := match priority with
    | none => []
    | some p => ["prio", toString p.value]
  .must (literals ["tc", "class", "add", "dev"] ++ device ::
      literals (["parent", "1:", "classid", flow, "htb", "rate", rate] ++ tier)) ::
    rules.map (fun r => .must (literals (["iptables", "-t", "mangle", "-A", chain] ++ r.words ++
      ["-j", "MARK", "--set-mark", mark]))) ++
    [.must (literals ["tc", "filter", "add", "dev"] ++ device ::
      literals ["parent", "1:", "protocol", "ip", "handle", mark, "fw", "flowid", flow])]

/-- A direction is shaped if it has a cap or the policy has a priority. -/
def direction (place : Nat) (device : ScriptWord) (chain : String) (cap : Option UInt32)
    (priority : Option Priority) (rules : List Rule) : Script :=
  if cap.isNone && priority.isNone then [] else shaping place device chain cap priority rules

/-- The commands of the policy at a place. -/
def policyCommands (place : Nat) (c : CompiledPolicy) : Script :=
  if c.policy.isBlocking then blocking c.rules.rules
  else
    direction place .outside uploadChain c.policy.upload c.policy.priority c.rules.upload ++
      direction place .inside downloadChain c.policy.download c.policy.priority c.rules.download

def policySection (place : Nat) (c : CompiledPolicy) : Script :=
  [.blank, .comment ("Policy " ++ toString place ++ ": " ++ oneLine c.policy.name ++ " (id " ++
      c.policy.id.text ++ ")")] ++
    policyCommands place c

/-- The sections of policies from a place on. -/
def policySections : Nat → List CompiledPolicy → Script
  | _, [] => []
  | place, c :: rest => policySection place c ++ policySections (place + 1) rest

/-- The script of a plan. -/
def ofPlan (p : Plan) : Script := header p ++ reset ++ policySections 1 p.policies

end Script

def Plan.script (p : Plan) : String := (Script.ofPlan p).text

end TrafficWarden
