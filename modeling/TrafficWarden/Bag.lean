import TrafficWarden.Policy.Basic
import TrafficWarden.TrafficClass
import TrafficWarden.Rule.Basic

/-!
# Parameter bags

What the targets of one policy say together: a set of MAC addresses, and for each side of a flow
its subnets, TCP ports and UDP ports.
-/

namespace TrafficWarden

/-- One value for each side of a flow. -/
structure BothSides (α : Type) where
  source : α
  destination : α
deriving DecidableEq, Repr

namespace BothSides

variable {α : Type}

def get (b : BothSides α) : Role → α
  | .source => b.source
  | .destination => b.destination

def modify (b : BothSides α) (role : Role) (f : α → α) : BothSides α :=
  match role with
  | .source => { b with source := f b.source }
  | .destination => { b with destination := f b.destination }

theorem get_modify (b : BothSides α) (role side : Role) (f : α → α) :
    (b.modify role f).get side = if side = role then f (b.get side) else b.get side := by
  cases role <;> cases side <;> rfl

end BothSides

structure ParameterBag where
  macs : OrderedSet MacAddress
  networks : BothSides (OrderedSet Subnet)
  tcpPorts : BothSides (OrderedSet UInt16)
  udpPorts : BothSides (OrderedSet UInt16)
deriving DecidableEq, Repr

/-- The kinds of value that a bag holds. -/
inductive ParameterKind where
  | mac
  | sourceIp
  | destinationIp
  | tcpSourcePort
  | tcpDestinationPort
  | udpSourcePort
  | udpDestinationPort
deriving DecidableEq, Repr

namespace ParameterKind

def all : List ParameterKind :=
  [mac, sourceIp, destinationIp, tcpSourcePort, tcpDestinationPort, udpSourcePort,
    udpDestinationPort]

def name : ParameterKind → String
  | mac => "mac"
  | sourceIp => "source_ip"
  | destinationIp => "destination_ip"
  | tcpSourcePort => "tcp_source_port"
  | tcpDestinationPort => "tcp_destination_port"
  | udpSourcePort => "udp_source_port"
  | udpDestinationPort => "udp_destination_port"

end ParameterKind

namespace ParameterBag

def empty : ParameterBag := ⟨∅, ⟨∅, ∅⟩, ⟨∅, ∅⟩, ⟨∅, ∅⟩⟩

instance : EmptyCollection ParameterBag := ⟨empty⟩
instance : Inhabited ParameterBag := ⟨empty⟩

def ports (b : ParameterBag) : Transport → BothSides (OrderedSet UInt16)
  | .tcp => b.tcpPorts
  | .udp => b.udpPorts

def hasNetworks (b : ParameterBag) : Bool :=
  !(b.networks.source.isEmpty && b.networks.destination.isEmpty)

def hasPorts (b : ParameterBag) : Bool :=
  !(b.tcpPorts.source.isEmpty && b.tcpPorts.destination.isEmpty) ||
    !(b.udpPorts.source.isEmpty && b.udpPorts.destination.isEmpty)

/-- The values of a kind as text, in their order. -/
def values (b : ParameterBag) : ParameterKind → List String
  | .mac => b.macs.toList.map (·.text)
  | .sourceIp => b.networks.source.toList.map (·.text)
  | .destinationIp => b.networks.destination.toList.map (·.text)
  | .tcpSourcePort => b.tcpPorts.source.toList.map (toString ·.toNat)
  | .tcpDestinationPort => b.tcpPorts.destination.toList.map (toString ·.toNat)
  | .udpSourcePort => b.udpPorts.source.toList.map (toString ·.toNat)
  | .udpDestinationPort => b.udpPorts.destination.toList.map (toString ·.toNat)

def addMac (b : ParameterBag) : Option MacAddress → ParameterBag
  | none => b
  | some mac => { b with macs := b.macs.insert mac }

def addClass (b : ParameterBag) (role : Role) (c : ResolvedClass) : ParameterBag :=
  { b with
    networks := b.networks.modify role (·.union c.subnets)
    tcpPorts := b.tcpPorts.modify role (·.union c.tcpPorts)
    udpPorts := b.udpPorts.modify role (·.union c.udpPorts) }

/-- Adds a target and the traffic class that it names. -/
def addTarget (b : ParameterBag) (t : Target) (c : Option TrafficClass) : ParameterBag :=
  match c with
  | none => b.addMac t.mac
  | some c => (b.addMac t.mac).addClass t.role c.resolve

/-- Adds the targets one after another. The first class that is not to be had ends the
collection. -/
def collect (classOf : EntityId → Except Fault TrafficClass) :
    ParameterBag → List Target → Except Fault ParameterBag
  | b, [] => .ok b
  | b, t :: rest =>
    match t.trafficClass with
    | none => collect classOf (b.addTarget t none) rest
    | some id =>
      match classOf id with
      | .error fault => .error fault
      | .ok c => collect classOf (b.addTarget t (some c)) rest

end ParameterBag

end TrafficWarden
