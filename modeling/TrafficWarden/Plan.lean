import TrafficWarden.Rule.Compile
import TrafficWarden.Store.Basic
import TrafficWarden.Warning

/-!
# Plans

A plan holds everything that one dispatch puts in force: the two interfaces of the gateway, and the
active policies in listing order with their compiled rules.
-/

namespace TrafficWarden

open Calendar

/-- The interfaces of the gateway. Upload leaves by the outside one and download by the inside
one. -/
structure Interfaces where
  outside : String
  inside : String
deriving DecidableEq, Repr

namespace Interfaces

/-- The interfaces that are taken when none are named. -/
def standard : Interfaces := ⟨"eth0", "eth1"⟩

instance : Inhabited Interfaces := ⟨standard⟩

end Interfaces

/-- A policy with its rules. -/
structure CompiledPolicy where
  policy : Policy
  rules : RuleSet
deriving DecidableEq

def CompiledPolicy.compile (policy : Policy) (bag : ParameterBag) : CompiledPolicy :=
  ⟨policy, .compile bag policy.priority policy.download⟩

structure Plan where
  interfaces : Interfaces
  moment : Timestamp
  policies : List CompiledPolicy
deriving DecidableEq

namespace Plan

def highPriorityCount (p : Plan) : Nat :=
  (p.policies.filter (·.policy.priority = some .high)).length

def ruleCount (p : Plan) : Nat := (p.policies.flatMap (·.rules.rules)).length

def policyIds (p : Plan) : OrderedSet EntityId := .ofList (p.policies.map (·.policy.id))

end Plan

namespace PolicySource

/-- Compiles policies in order. A policy whose parameters are missing or invalid is skipped with a
warning; any other fault ends the compilation. The warnings up to then are kept. -/
def compilePolicies (s : PolicySource) :
    List Policy → Except Fault (List CompiledPolicy) × List Warning
  | [] => (.ok [], [])
  | p :: rest =>
    match s.bag p.id with
    | .ok bag =>
      let (compiled, warnings) := compilePolicies s rest
      (compiled.map (CompiledPolicy.compile p bag :: ·), warnings)
    | .error fault =>
      if fault.isLocal then
        let (compiled, warnings) := compilePolicies s rest
        (compiled, .policySkipped p.id p.name fault :: warnings)
      else (.error fault, [])

/-- The plan of the policies that are active at a moment. -/
def plan (s : PolicySource) (interfaces : Interfaces) (moment : Timestamp) :
    Except Fault Plan × List Warning :=
  match s.active moment with
  | .error fault => (.error fault, [])
  | .ok active =>
    let (compiled, warnings) := s.compilePolicies active
    (compiled.map (⟨interfaces, moment, ·⟩), warnings)

end PolicySource

end TrafficWarden
