import TrafficWarden.Json.Basic
import TrafficWarden.Dispatch.Cycle
import TrafficWarden.Settings.Basic

/-!
# Records

The JSON forms of policies and of what is made from them.
-/

namespace TrafficWarden

open Calendar

def EntityId.toJson (id : EntityId) : Json := .integer id.value

namespace MacAddress

def toJson (m : MacAddress) : Json := .string m.text

/-- Reads an address from a string. -/
def ofJson? (j : Json) : Option MacAddress := j.asString?.bind read?

end MacAddress

def TimeWindow.toJson (w : TimeWindow) : Json := .object [
  ("weekday", .string w.weekday.abbreviation),
  ("start", .string w.start.text),
  ("end", .string w.stop.text)]

def capJson (cap : Option UInt32) : Json := Json.ofOption (fun n => Json.nat n.toNat) cap

/-- The members of a policy's record. -/
def Policy.members (p : Policy) : List (String × Json) := [
  ("id", p.id.toJson),
  ("name", .string p.name),
  ("description", Json.ofOption .string p.description),
  ("enabled", .bool p.enabled),
  ("priority", Json.ofOption (fun t => .string t.name) p.priority),
  ("upload_kbps", capJson p.upload),
  ("download_kbps", capJson p.download),
  ("windows", .array (p.windows.map TimeWindow.toJson))]

def Policy.toJson (p : Policy) : Json := .object p.members

def Target.toJson (t : Target) : Json := .object [
  ("id", t.id.toJson),
  ("policy_id", t.policy.toJson),
  ("role", .string t.role.name),
  ("class_id", Json.ofOption EntityId.toJson t.trafficClass),
  ("mac", Json.ofOption (fun m => .string m.text) t.mac)]

def ClassSubnet.toJson (s : ClassSubnet) : Json := .object [
  ("cidr", .string s.subnet.text), ("group", .string s.side.name)]

def Port.toJson (p : Port) : Json := .object [
  ("number", Json.nat p.number.toNat), ("protocol", .string p.protocol.name)]

def ClassPort.toJson (p : ClassPort) : Json := .object [
  ("port", p.port.toJson), ("group", .string p.side.name)]

def TrafficClass.toJson (c : TrafficClass) : Json := .object [
  ("id", c.id.toJson),
  ("name", .string c.name),
  ("description", .string c.description),
  ("enabled", .bool c.enabled),
  ("kind", .string c.owner.name),
  ("subnets", .array (c.subnets.map ClassSubnet.toJson)),
  ("ports", .array (c.ports.map ClassPort.toJson))]

def subnetsJson (s : OrderedSet Subnet) : Json := Json.strings (s.toList.map (·.text))

def portsJson (s : OrderedSet UInt16) : Json := .array (s.toList.map fun n => Json.nat n.toNat)

def ResolvedClass.toJson (c : ResolvedClass) : Json := .object [
  ("subnets", subnetsJson c.subnets),
  ("tcp_ports", portsJson c.tcpPorts),
  ("udp_ports", portsJson c.udpPorts)]

def BothSides.toJson {α : Type} (f : α → Json) (b : BothSides α) : Json := .object [
  ("source", f b.source), ("destination", f b.destination)]

def ParameterBag.toJson (b : ParameterBag) : Json := .object [
  ("macs", Json.strings (b.macs.toList.map (·.text))),
  ("networks", b.networks.toJson subnetsJson),
  ("tcp_ports", b.tcpPorts.toJson portsJson),
  ("udp_ports", b.udpPorts.toJson portsJson)]

/-- The flags of a rule by their tokens; a marker has an empty text. -/
def Rule.toJson (r : Rule) : Json :=
  .object (r.toList.map fun (f, v) => (f.token, .string v.argument))

def rulesJson (rules : List Rule) : Json := .array (rules.map Rule.toJson)

def CompiledPolicy.toJson (c : CompiledPolicy) : Json := .object [
  ("policy", c.policy.toJson),
  ("rules", rulesJson c.rules.rules),
  ("originals", Json.nat c.rules.forwardCount)]

def Interfaces.toJson (i : Interfaces) : Json := .object [
  ("outside", .string i.outside), ("inside", .string i.inside)]

def Settings.toJson (s : Settings) : Json := .object [
  ("interfaces", s.interfaces.toJson),
  ("dispatch", .object [
    ("script_path", .string s.scriptPath),
    ("shell", .string s.shell),
    ("interval_secs", Json.nat s.interval.toNat)]),
  ("catalog", .object [("path", .string s.catalogPath)])]

def DispatchStatus.toJson (s : DispatchStatus) : Json := .object [
  ("last_dispatch", Json.ofOption (fun t => .string t.isoText) s.last),
  ("has_temporal_rules", .bool s.temporal),
  ("policy_set_changed", Json.ofOption .bool s.changed),
  ("state", .string s.state.name)]

def DispatchOutcome.toJson : DispatchOutcome → Json
  | .skipped state => .object [("outcome", .string "skipped"), ("state", .string state.name)]
  | .applied policies rules => .object [("outcome", .string "applied"),
      ("policies", Json.nat policies), ("rules", Json.nat rules)]

end TrafficWarden
