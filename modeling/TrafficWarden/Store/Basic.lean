import TrafficWarden.Bag

/-!
# Stores of policies

A store lists policies in the order of their first insertion, the targets of each policy in the
order of insertion, and traffic classes by identity. A `PolicySource` is what the rest of the
program reads: every one of its reads may fail.
-/

namespace TrafficWarden

open Calendar

structure Store where
  policies : List Policy
  targets : List Target
  classes : List TrafficClass
deriving DecidableEq, Repr

/-- Replaces the policy with the same identity, or appends. -/
def insertPolicy (p : Policy) : List Policy → List Policy
  | [] => [p]
  | q :: rest => if q.id = p.id then p :: rest else q :: insertPolicy p rest

/-- Inserts a class before the classes of higher identity, in place of the one with the same. -/
def insertClass (c : TrafficClass) : List TrafficClass → List TrafficClass
  | [] => [c]
  | d :: rest =>
    if c.id.value < d.id.value then c :: d :: rest
    else if c.id = d.id then c :: rest
    else d :: insertClass c rest

namespace Store

def empty : Store := ⟨[], [], []⟩

instance : EmptyCollection Store := ⟨empty⟩
instance : Inhabited Store := ⟨empty⟩

def addPolicy (s : Store) (p : Policy) : Store := { s with policies := insertPolicy p s.policies }

def addTarget (s : Store) (t : Target) : Store := { s with targets := s.targets ++ [t] }

def addClass (s : Store) (c : TrafficClass) : Store := { s with classes := insertClass c s.classes }

def policy? (s : Store) (id : EntityId) : Option Policy := s.policies.find? (·.id = id)

def targetsOf (s : Store) (id : EntityId) : List Target := s.targets.filter (·.policy = id)

def class? (s : Store) (id : EntityId) : Option TrafficClass := s.classes.find? (·.id = id)

end Store

/-- A source of policies, targets and traffic classes. Whether some policy has windows is not read
on its own: it follows from the policies that are read. A read has the same result however often it
is made; the reads of a `CycleReads` are answered one by one. -/
structure PolicySource where
  policies : Except Fault (List Policy)
  targets : EntityId → Except Fault (List Target)
  trafficClass : EntityId → Except Fault TrafficClass

/-- What is found, or the fault that it is not found. -/
def orNotFound {α : Type} (kind : EntityKind) (id : EntityId) : Option α → Except Fault α
  | some a => .ok a
  | none => .error (.notFound kind id)

namespace Store

/-- The reads of a store; only a class that is not there makes one fail. -/
def source (s : Store) : PolicySource where
  policies := .ok s.policies
  targets id := .ok (s.targetsOf id)
  trafficClass id := orNotFound .trafficClass id (s.class? id)

end Store

namespace PolicySource

/-- A source whose every read fails. -/
def failing (fault : Fault) : PolicySource where
  policies := .error fault
  targets _ := .error fault
  trafficClass _ := .error fault

def policy (s : PolicySource) (id : EntityId) : Except Fault Policy := do
  let policies ← s.policies
  orNotFound .policy id (policies.find? (·.id = id))

def hasTimeWindows (s : PolicySource) : Except Fault Bool := do
  let policies ← s.policies
  return policies.any (·.hasWindows)

/-- The policies that are active at a moment, in listing order. -/
def active (s : PolicySource) (moment : Timestamp) : Except Fault (List Policy) := do
  let policies ← s.policies
  return policies.filter (·.isActive moment)

/-- The parameter bag of a policy, from its targets. -/
def bag (s : PolicySource) (id : EntityId) : Except Fault ParameterBag := do
  let targets ← s.targets id
  ParameterBag.collect s.trafficClass ∅ targets

end PolicySource

end TrafficWarden
