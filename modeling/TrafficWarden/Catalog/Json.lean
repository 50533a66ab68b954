import TrafficWarden.Catalog.Document
import TrafficWarden.Json.Reader

/-!
# Catalogs in JSON

A row may be an object or an array of its fields in order, and a catalog an array of its tables.
-/

namespace TrafficWarden

namespace Json

mutual

/-- A JSON value as a node of a document. -/
def toNode : Json → Node
  | .null => .scalar { Scalar.foreign with presence := .absent }
  | .bool b => .scalar { Scalar.foreign with bool := some b }
  | .integer n => .scalar { Scalar.foreign with integer := some n }
  | .real _ => .scalar .foreign
  | .string s => .scalar { Scalar.foreign with text := some s }
  | .garbled => .unreadable
  | .array items => .list (toNodes items)
  | .object members => .table (toEntries members)

def toNodes : List Json → List Node
  | [] => []
  | item :: items => toNode item :: toNodes items

def toEntries : List (String × Json) → List (String × Node)
  | [] => []
  | (name, value) :: members => (name, toNode value) :: toEntries members

end

end Json

namespace Catalog

def ofJson? (value : Json) : Option Catalog := ofNode? .exact value.toNode

def readJson? (text : String) : Option Catalog := (Json.read? text).bind ofJson?

end Catalog

namespace ClassRow

def toJson (r : ClassRow) : Json := .object [("id", .integer r.id), ("name", .string r.name),
  ("description", .string r.description), ("kind", .integer r.kind), ("enabled", .bool r.enabled)]

end ClassRow

namespace CidrRow

def toJson (r : CidrRow) : Json := .object [("id", .integer r.id), ("address", .string r.address),
  ("prefix", .integer r.length)]

end CidrRow

namespace PortRow

def toJson (r : PortRow) : Json := .object [("id", .integer r.id), ("number", .integer r.number),
  ("protocol", .integer r.protocol)]

end PortRow

namespace ClassCidrRow

def toJson (r : ClassCidrRow) : Json := .object [("class_id", .integer r.trafficClass),
  ("cidr_id", .integer r.cidr), ("group", .string r.group)]

end ClassCidrRow

namespace ClassPortRow

def toJson (r : ClassPortRow) : Json := .object [("class_id", .integer r.trafficClass),
  ("port_id", .integer r.port), ("group", .string r.group)]

end ClassPortRow

namespace PolicyRow

def toJson (r : PolicyRow) : Json := .object [("id", .integer r.id), ("name", .string r.name),
  ("description", Json.ofOption .string r.description), ("enabled", .bool r.enabled),
  ("priority", Json.ofOption .integer r.priority), ("upload", Json.ofOption .integer r.upload),
  ("download", Json.ofOption .integer r.download)]

end PolicyRow

namespace TargetRow

def toJson (r : TargetRow) : Json := .object [("id", .integer r.id),
  ("policy_id", .integer r.policy), ("class_id", Json.ofOption .integer r.trafficClass),
  ("role", .string r.role), ("mac", Json.ofOption .string r.mac)]

end TargetRow

namespace WindowRow

def toJson (r : WindowRow) : Json := .object [("id", .integer r.id),
  ("policy_id", .integer r.policy), ("weekday", .integer r.weekday), ("start", .string r.start),
  ("end", .string r.stop)]

end WindowRow

namespace Catalog

/-- A catalog with every table and every field written out. -/
def toJson (c : Catalog) : Json := .object [
  ("traffic_classes", .array (c.classes.map ClassRow.toJson)),
  ("cidrs", .array (c.cidrs.map CidrRow.toJson)),
  ("ports", .array (c.ports.map PortRow.toJson)),
  ("class_cidrs", .array (c.classCidrs.map ClassCidrRow.toJson)),
  ("class_ports", .array (c.classPorts.map ClassPortRow.toJson)),
  ("policies", .array (c.policies.map PolicyRow.toJson)),
  ("targets", .array (c.targets.map TargetRow.toJson)),
  ("time_windows", .array (c.windows.map WindowRow.toJson))]

end Catalog

end TrafficWarden
