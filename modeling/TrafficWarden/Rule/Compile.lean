import TrafficWarden.Bag

/-!
# From parameter bags to rules

The subnets of a bag make one rule, each pair of ports of a protocol one rule, each MAC address one
rule, and the rules of the bag are their product. A policy with a priority or a download cap gets
these rules in reverse after them, those apart that are their own reverse.
-/

namespace TrafficWarden

namespace ParameterBag

def subnetList (subnets : OrderedSet Subnet) : FlagValue :=
  .text (",".intercalate (subnets.toList.map (·.text)))

def setSubnets (f : Flag) (subnets : OrderedSet Subnet) (r : Rule) : Rule :=
  if subnets.isEmpty then r else r.set f (subnetList subnets)

/-- One rule for all subnets of the bag, or none if it has none. -/
def networkRules (b : ParameterBag) : List Rule :=
  if b.hasNetworks then
    [setSubnets .destinationIp b.networks.destination
      (setSubnets .sourceIp b.networks.source ∅)]
  else []

/-- The rules for the ports of one protocol: one for each port of the side that has ports, or for
each pair if both have. -/
def transportRules (t : Transport) (ports : BothSides (OrderedSet UInt16)) : List Rule :=
  let base := (∅ : Rule).set .protocol (.transport t)
  match ports.source.toList, ports.destination.toList with
  | [], [] => []
  | sources, [] => sources.map fun s => base.set .sourcePort (.port s)
  | [], destinations => destinations.map fun d => base.set .destinationPort (.port d)
  | sources, destinations =>
    sources.flatMap fun s => destinations.map fun d =>
      (base.set .sourcePort (.port s)).set .destinationPort (.port d)

def portRules (b : ParameterBag) : List Rule :=
  transportRules .tcp b.tcpPorts ++ transportRules .udp b.udpPorts

/-- One rule for each MAC address. -/
def macRules (b : ParameterBag) : List Rule :=
  b.macs.toList.map fun mac =>
    ((∅ : Rule).set .macExtension .marker).set .macSource (.text mac.text)

/-- The rules of a bag, without any reverse. The empty bag has one rule, which matches every
packet. -/
def forwardRules (b : ParameterBag) : List Rule :=
  Rule.product (Rule.product (Rule.product [∅] b.networkRules) b.portRules) b.macRules

end ParameterBag

/-- The reverses of the rules that differ from their reverse. -/
def Rule.properReverses (rules : List Rule) : List Rule :=
  rules.filterMap fun r => if r.reversed = r then none else some r.reversed

/-- Compiled rules: first those of a bag, the forward ones, and after them their reverses. -/
structure RuleSet where
  rules : List Rule
  forwardCount : Nat
deriving DecidableEq

namespace RuleSet

def compile (bag : ParameterBag) (priority : Option Priority) (download : Option UInt32) :
    RuleSet :=
  let forward := bag.forwardRules
  if priority.isSome || download.isSome then
    ⟨forward ++ Rule.properReverses forward, forward.length⟩
  else ⟨forward, forward.length⟩

/-- The rules for traffic that leaves by the outside interface. -/
def upload (s : RuleSet) : List Rule := s.rules.take s.forwardCount

/-- The rules for traffic that leaves by the inside interface. -/
def download (s : RuleSet) : List Rule := s.upload.map Rule.reversed

end RuleSet

end TrafficWarden
