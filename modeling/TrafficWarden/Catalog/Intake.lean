import TrafficWarden.Catalog.Basic
import TrafficWarden.Store.Basic
import TrafficWarden.Warning

/-!
# From catalogs to stores

The rows of a catalog are checked and joined. A bad row never spoils the whole catalog: the class
or the policy that it belongs to is left out with a warning, and all else is kept.
-/

namespace TrafficWarden

open Calendar

namespace CidrRow

/-- Reads a subnet: an IPv4 address with blanks around it, and the length of its network part. -/
def read (row : CidrRow) : Except Fault Subnet :=
  let invalid (reason : String) : Fault := .invalid .cidr ⟨row.id⟩ reason
  match Ipv4.read? (Text.trim row.address.toList) with
  | none => .error (invalid ("'" ++ row.address ++ "' is not an IPv4 address"))
  | some address =>
    match Subnet.of? address row.length with
    | none => .error (invalid ("prefix " ++ toString row.length ++ " is outside 0..=32"))
    | some subnet => .ok subnet

end CidrRow

namespace PortRow

def read (row : PortRow) : Except Fault Port :=
  let invalid (reason : String) : Fault := .invalid .port ⟨row.id⟩ reason
  if row.number < 0 || 65535 < row.number then
    .error (invalid (toString row.number ++ " is not a port number"))
  else
    match Protocol.ofNumber? row.protocol with
    | none => .error (invalid ("unsupported protocol " ++ toString row.protocol))
    | some protocol => .ok ⟨row.number.toNat.toUInt16, protocol⟩

end PortRow

namespace WindowRow

def read (row : WindowRow) : Except String TimeWindow :=
  let head := "window " ++ toString row.id ++ ": "
  match Weekday.ofSundayIndex? row.weekday with
  | none => .error (head ++ "weekday " ++ toString row.weekday ++ " is outside 0..=6")
  | some weekday =>
    match TimeOfDay.read? row.start with
    | none => .error (head ++ "bad start time '" ++ row.start ++ "'")
    | some start =>
      match TimeOfDay.read? row.stop with
      | none => .error (head ++ "bad end time '" ++ row.stop ++ "'")
      | some stop =>
        match TimeWindow.of? weekday start stop with
        | none => .error (head ++ TimeWindow.complaint start stop)
        | some window => .ok window

end WindowRow

namespace TargetRow

/-- Reads a MAC address; a blank one is none. -/
def readMac (row : TargetRow) : Except String (Option MacAddress) :=
  match row.mac with
  | none => .ok none
  | some raw =>
    if Text.isBlankText raw then .ok none
    else match MacAddress.read? raw with
      | none => .error (MacAddress.complaint raw)
      | some mac => .ok (some mac)

/-- Reads a target, whose traffic class must be one of the known ones. -/
def read (known : List Int) (row : TargetRow) : Except String Target :=
  let head := "target " ++ toString row.id ++ ": "
  match Catalog.readRole row.role with
  | .error reason => .error (head ++ reason)
  | .ok role =>
    match row.readMac with
    | .error reason => .error (head ++ reason)
    | .ok mac =>
      match row.trafficClass with
      | none => .ok ⟨⟨row.id⟩, ⟨row.policy⟩, role, none, mac⟩
      | some c =>
        if c ∈ known then .ok ⟨⟨row.id⟩, ⟨row.policy⟩, role, some ⟨c⟩, mac⟩
        else .error (head ++ "traffic class " ++ toString c ++ " is missing or invalid")

end TargetRow

namespace Catalog

/-- The subnet of an identity: the last row with it counts. -/
def cidr (c : Catalog) (id : Int) : Except String Subnet :=
  match c.cidrs.reverse.find? (·.id = id) with
  | none => .error ("unknown cidr " ++ toString id)
  | some row => row.read.mapError Fault.message

/-- The port of an identity: the last row with it counts. -/
def port (c : Catalog) (id : Int) : Except String Port :=
  match c.ports.reverse.find? (·.id = id) with
  | none => .error ("unknown port " ++ toString id)
  | some row => row.read.mapError Fault.message

def classSubnet (c : Catalog) (link : ClassCidrRow) : Except String ClassSubnet := do
  let subnet ← c.cidr link.cidr
  let side ← readGroup link.group
  return ⟨subnet, side⟩

def classPort (c : Catalog) (link : ClassPortRow) : Except String ClassPort := do
  let port ← c.port link.port
  let side ← readGroup link.group
  return ⟨port, side⟩

/-- Joins a traffic class with its subnets and ports. -/
def trafficClass (c : Catalog) (row : ClassRow) : Except Fault TrafficClass :=
  let joined : Except String TrafficClass := do
    let subnets ← (c.classCidrs.filter (·.trafficClass = row.id)).mapM c.classSubnet
    let ports ← (c.classPorts.filter (·.trafficClass = row.id)).mapM c.classPort
    return {
      id := ⟨row.id⟩
      name := row.name
      description := row.description
      enabled := row.enabled
      owner := if row.kind = 0 then .system else .user
      subnets
      ports }
  joined.mapError (.invalid .trafficClass ⟨row.id⟩)

end Catalog

namespace PolicyRow

def readPriority : Option Int → Except String (Option Priority)
  | none => .ok none
  | some value =>
    match Priority.ofValue? value with
    | none => .error ("priority " ++ toString value ++ " is not one of 1, 3, 7")
    | some priority => .ok (some priority)

/-- Reads a cap; a cap of zero is none. -/
def readCap (direction : String) : Option Int → Except String (Option UInt32)
  | none => .ok none
  | some value =>
    if value = 0 then .ok none
    else if 0 < value ∧ value ≤ 0xFFFFFFFF then .ok (some value.toNat.toUInt32)
    else .error (direction ++ " cap " ++ toString value ++ " is out of range")

/-- Joins a policy with its windows and targets. -/
def read (row : PolicyRow) (windows : List WindowRow) (targets : List TargetRow)
    (known : List Int) : Except Fault (Policy × List Target) :=
  let joined : Except String (Policy × List Target) := do
    let priority ← readPriority row.priority
    let upload ← readCap "upload" row.upload
    let download ← readCap "download" row.download
    let windows ← windows.mapM WindowRow.read
    let targets ← targets.mapM (TargetRow.read known)
    let policy : Policy := {
      id := ⟨row.id⟩
      name := row.name
      description := row.description
      enabled := row.enabled
      priority, upload, download, windows }
    return (policy, targets)
  joined.mapError (.invalid .policy ⟨row.id⟩)

end PolicyRow

namespace Catalog

/-- Adds a traffic class, or warns that it is left out. -/
def admitClass (c : Catalog) : Store × List Warning → ClassRow → Store × List Warning
  | (store, warnings), row =>
    match c.trafficClass row with
    | .ok class' => (store.addClass class', warnings)
    | .error fault => (store, warnings ++ [.classDropped ⟨row.id⟩ row.name fault])

/-- The identities that a traffic class of the catalog could be made for. -/
def knownClasses (c : Catalog) : List Int :=
  (c.classes.filter fun row => (c.trafficClass row).isOk).map (·.id)

def hasPolicy (c : Catalog) (id : Int) : Bool := c.policies.any (·.id = id)

def orphanWindows (c : Catalog) : List Warning :=
  (c.windows.filter fun row => !c.hasPolicy row.policy).map fun row =>
    .windowDropped ⟨row.id⟩ ⟨row.policy⟩

def orphanTargets (c : Catalog) : List Warning :=
  (c.targets.filter fun row => !c.hasPolicy row.policy).map fun row =>
    .targetDropped ⟨row.id⟩ ⟨row.policy⟩

/-- Joins a policy of the catalog with its own windows and targets. -/
def policy (c : Catalog) (known : List Int) (row : PolicyRow) :
    Except Fault (Policy × List Target) :=
  row.read (c.windows.filter (·.policy = row.id)) (c.targets.filter (·.policy = row.id)) known

/-- Adds a policy and its targets, or warns that it is left out. -/
def admitPolicy (c : Catalog) (known : List Int) :
    Store × List Warning → PolicyRow → Store × List Warning
  | (store, warnings), row =>
    match c.policy known row with
    | .ok (policy, targets) =>
      (targets.foldl Store.addTarget (store.addPolicy policy), warnings)
    | .error fault => (store, warnings ++ [.policyRejected ⟨row.id⟩ row.name fault])

/-- The store of a catalog, and a warning for each row that is left out. -/
def toStore (c : Catalog) : Store × List Warning :=
  let (store, warnings) := c.classes.foldl c.admitClass (∅, [])
  c.policies.foldl (c.admitPolicy c.knownClasses)
    (store, warnings ++ c.orphanWindows ++ c.orphanTargets)

end Catalog

end TrafficWarden
