import TrafficWarden.Address.Subnet
import TrafficWarden.Fault

/-!
# Traffic classes

A traffic class is a named pattern of subnets and ports. Resolving it forgets the side of the
gateway that each of them was listed for, and files a port of no protocol under both.
-/

namespace TrafficWarden

/-- A side of the gateway. -/
inductive Side where
  | inside
  | outside
deriving DecidableEq, Repr

def Side.name : Side → String
  | .inside => "inside"
  | .outside => "outside"

inductive ClassOwner where
  | system
  | user
deriving DecidableEq, Repr

def ClassOwner.name : ClassOwner → String
  | .system => "system"
  | .user => "user"

/-- The transport protocol of a port, or either of them. -/
inductive Protocol where
  | any
  | tcp
  | udp
deriving DecidableEq, Repr

namespace Protocol

/-- Reads an IP protocol number. -/
def ofNumber? : Int → Option Protocol
  | 0 => some .any
  | 6 => some .tcp
  | 17 => some .udp
  | _ => none

def coversTcp : Protocol → Bool
  | .udp => false
  | _ => true

def coversUdp : Protocol → Bool
  | .tcp => false
  | _ => true

def name : Protocol → String
  | .any => "any"
  | .tcp => "tcp"
  | .udp => "udp"

end Protocol

structure Port where
  number : UInt16
  protocol : Protocol
deriving DecidableEq, Repr

def Port.text (p : Port) : String :=
  match p.protocol with
  | .any => toString p.number.toNat
  | .tcp => toString p.number.toNat ++ "/tcp"
  | .udp => toString p.number.toNat ++ "/udp"

structure ClassSubnet where
  subnet : Subnet
  side : Side
deriving DecidableEq, Repr

structure ClassPort where
  port : Port
  side : Side
deriving DecidableEq, Repr

structure TrafficClass where
  id : EntityId
  name : String
  description : String
  enabled : Bool
  owner : ClassOwner
  subnets : List ClassSubnet
  ports : List ClassPort
deriving DecidableEq, Repr

/-- The distinct subnets and ports of a traffic class, in order. -/
structure ResolvedClass where
  subnets : OrderedSet Subnet
  tcpPorts : OrderedSet UInt16
  udpPorts : OrderedSet UInt16
deriving DecidableEq, Repr

namespace TrafficClass

def resolve (c : TrafficClass) : ResolvedClass where
  subnets := .ofList (c.subnets.map (·.subnet))
  tcpPorts := .ofList ((c.ports.filter (·.port.protocol.coversTcp)).map (·.port.number))
  udpPorts := .ofList ((c.ports.filter (·.port.protocol.coversUdp)).map (·.port.number))

@[simp] theorem mem_subnets_resolve {c : TrafficClass} {s : Subnet} :
    s ∈ c.resolve.subnets ↔ ∃ a ∈ c.subnets, a.subnet = s := by
  simp [resolve]

@[simp] theorem mem_tcpPorts_resolve {c : TrafficClass} {n : UInt16} :
    n ∈ c.resolve.tcpPorts ↔
      ∃ a ∈ c.ports, a.port.protocol.coversTcp = true ∧ a.port.number = n := by
  simp [resolve, and_assoc]

@[simp] theorem mem_udpPorts_resolve {c : TrafficClass} {n : UInt16} :
    n ∈ c.resolve.udpPorts ↔
      ∃ a ∈ c.ports, a.port.protocol.coversUdp = true ∧ a.port.number = n := by
  simp [resolve, and_assoc]

end TrafficClass

end TrafficWarden
