import TrafficWarden.Text.Ascii
import TrafficWarden.Text.Blank
import TrafficWarden.Policy.Basic
import TrafficWarden.TrafficClass

/-!
# Catalogs

A catalog holds eight tables of rows, as they were written. Nothing in a row has been checked
against another row or for its meaning.
-/

namespace TrafficWarden

structure ClassRow where
  id : Int
  name : String
  description : String
  kind : Int
  enabled : Bool
deriving DecidableEq, Repr

structure CidrRow where
  id : Int
  address : String
  length : Int
deriving DecidableEq, Repr

structure PortRow where
  id : Int
  number : Int
  protocol : Int
deriving DecidableEq, Repr

/-- The link of a traffic class to a subnet. -/
structure ClassCidrRow where
  trafficClass : Int
  cidr : Int
  group : String
deriving DecidableEq, Repr

/-- The link of a traffic class to a port. -/
structure ClassPortRow where
  trafficClass : Int
  port : Int
  group : String
deriving DecidableEq, Repr

structure PolicyRow where
  id : Int
  name : String
  description : Option String
  enabled : Bool
  priority : Option Int
  upload : Option Int
  download : Option Int
deriving DecidableEq, Repr

structure TargetRow where
  id : Int
  policy : Int
  trafficClass : Option Int
  role : String
  mac : Option String
deriving DecidableEq, Repr

structure WindowRow where
  id : Int
  policy : Int
  weekday : Int
  start : String
  stop : String
deriving DecidableEq, Repr

structure Catalog where
  classes : List ClassRow
  cidrs : List CidrRow
  ports : List PortRow
  classCidrs : List ClassCidrRow
  classPorts : List ClassPortRow
  policies : List PolicyRow
  targets : List TargetRow
  windows : List WindowRow
deriving DecidableEq, Repr

namespace Catalog

def empty : Catalog := ⟨[], [], [], [], [], [], [], []⟩

instance : EmptyCollection Catalog := ⟨empty⟩
instance : Inhabited Catalog := ⟨empty⟩

/-- A code without the blanks around it and in small letters. -/
def foldCode (raw : String) : String := Text.lowered (Text.trimmed raw)

/-- Reads the code of a target's role, by its letter or its name. -/
def readRole (raw : String) : Except String Role :=
  match foldCode raw with
  | "o" | "source" => .ok .source
  | "d" | "destination" => .ok .destination
  | other => .error ("unknown target role '" ++ other ++ "'")

/-- Reads the code of a side of the gateway, by its letter or its name. -/
def readGroup (raw : String) : Except String Side :=
  match foldCode raw with
  | "i" | "inside" => .ok .inside
  | "o" | "outside" => .ok .outside
  | other => .error ("unknown group '" ++ other ++ "'")

end Catalog

end TrafficWarden
