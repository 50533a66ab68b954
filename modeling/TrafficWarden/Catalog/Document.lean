import TrafficWarden.Catalog.Basic
import TrafficWarden.Text.Numeral

/-!
# Rows of documents

A document in any of the formats is a tree of lists, tables and scalars. A scalar says what it is
to a field of each type. A row is a table, whose entries of other names are passed over; some
formats also admit a list of the fields in order. Every field that may be missing has a default.
-/

namespace TrafficWarden

/-- Whether a scalar counts as a value or as none in a field that may be empty. -/
inductive Presence where
  | present
  | absent
  | unclear
deriving DecidableEq, Repr

/-- What a scalar is to a text, an integer and a truth value, and as an empty field. A blank scalar
stands for an empty list or table. -/
structure Scalar where
  text : Option String
  integer : Option Int
  bool : Option Bool
  presence : Presence
  blank : Bool
deriving DecidableEq, Repr

/-- A scalar that no field takes. -/
def Scalar.foreign : Scalar := ⟨none, none, none, .present, false⟩

inductive Node where
  | scalar (s : Scalar)
  | list (items : List Node)
  | table (entries : List (String × Node))
  | unreadable
deriving Inhabited, Repr

/-- Whether a list can stand for a row, and whether it may then have more items than the row has
fields. -/
inductive ListRows where
  | refused
  | exact
  | loose
deriving DecidableEq, Repr

namespace Node

def text? : Node → Option String
  | scalar s => s.text
  | _ => none

/-- An integer of 64 bits. -/
def integer? : Node → Option Int
  | scalar s => s.integer.filter Text.Bounds.int64.admits
  | _ => none

/-- A natural number of 64 bits. -/
def natural? : Node → Option UInt64
  | scalar s => (s.integer.filter Text.Bounds.uint64.admits).map fun n => n.toNat.toUInt64
  | _ => none

def bool? : Node → Option Bool
  | scalar s => s.bool
  | _ => none

/-- The value of a field that may be empty. -/
def nullable? {α : Type} (read : Node → Option α) (n : Node) : Option (Option α) :=
  match n with
  | scalar s =>
    match s.presence with
    | .absent => some none
    | .unclear => none
    | .present => (read n).map some
  | _ => (read n).map some

def list? : Node → Option (List Node)
  | list items => some items
  | scalar s => if s.blank then some [] else none
  | _ => none

/-- Whether no name occurs twice. -/
def distinctNames : List (String × Node) → Bool
  | [] => true
  | (name, _) :: rest => !rest.any (·.1 = name) && distinctNames rest

/-- The fields of a row that have one of the names. A name that occurs twice spoils the row. -/
def fields? (form : ListRows) (names : List String) : Node → Option (List (String × Node))
  | table entries =>
    let known := entries.filter (names.contains ·.1)
    if distinctNames known then some known else none
  | list items =>
    match form with
    | .refused => none
    | .exact => if items.length ≤ names.length then some (names.zip items) else none
    | .loose => some (names.zip items)
  | scalar s => if s.blank then some [] else none
  | unreadable => none

end Node

/-- The fields of one row, by name. -/
abbrev Fields := List (String × Node)

namespace Fields

def valueOf? (fields : Fields) (name : String) : Option Node :=
  (List.find? (·.1 = name) fields).map (·.2)

/-- A field that must be there. -/
def required {α : Type} (read : Node → Option α) (name : String) (fields : Fields) : Option α :=
  (fields.valueOf? name).bind read

/-- A field with a default. -/
def withDefault {α : Type} (default : α) (read : Node → Option α) (name : String)
    (fields : Fields) : Option α :=
  match fields.valueOf? name with
  | none => some default
  | some n => read n

end Fields

namespace Catalog

open Node Fields

def readClass (form : ListRows) (n : Node) : Option ClassRow := do
  let f ← n.fields? form ["id", "name", "description", "kind", "enabled"]
  let id ← required integer? "id" f
  let name ← required text? "name" f
  let description ← withDefault "" text? "description" f
  let kind ← withDefault 0 integer? "kind" f
  let enabled ← withDefault true bool? "enabled" f
  return ⟨id, name, description, kind, enabled⟩

def readCidr (form : ListRows) (n : Node) : Option CidrRow := do
  let f ← n.fields? form ["id", "address", "prefix"]
  let id ← required integer? "id" f
  let address ← required text? "address" f
  let length ← withDefault 0 integer? "prefix" f
  return ⟨id, address, length⟩

def readPort (form : ListRows) (n : Node) : Option PortRow := do
  let f ← n.fields? form ["id", "number", "protocol"]
  let id ← required integer? "id" f
  let number ← required integer? "number" f
  let protocol ← withDefault 0 integer? "protocol" f
  return ⟨id, number, protocol⟩

def readClassCidr (form : ListRows) (n : Node) : Option ClassCidrRow := do
  let f ← n.fields? form ["class_id", "cidr_id", "group"]
  let trafficClass ← required integer? "class_id" f
  let cidr ← required integer? "cidr_id" f
  let group ← withDefault "o" text? "group" f
  return ⟨trafficClass, cidr, group⟩

def readClassPort (form : ListRows) (n : Node) : Option ClassPortRow := do
  let f ← n.fields? form ["class_id", "port_id", "group"]
  let trafficClass ← required integer? "class_id" f
  let port ← required integer? "port_id" f
  let group ← withDefault "o" text? "group" f
  return ⟨trafficClass, port, group⟩

def readPolicy (form : ListRows) (n : Node) : Option PolicyRow := do
  let f ← n.fields? form
    ["id", "name", "description", "enabled", "priority", "upload", "download"]
  let id ← required integer? "id" f
  let name ← required text? "name" f
  let description ← withDefault none (nullable? text?) "description" f
  let enabled ← withDefault true bool? "enabled" f
  let priority ← withDefault none (nullable? integer?) "priority" f
  let upload ← withDefault none (nullable? integer?) "upload" f
  let download ← withDefault none (nullable? integer?) "download" f
  return ⟨id, name, description, enabled, priority, upload, download⟩

def readTarget (form : ListRows) (n : Node) : Option TargetRow := do
  let f ← n.fields? form ["id", "policy_id", "class_id", "role", "mac"]
  let id ← required integer? "id" f
  let policy ← required integer? "policy_id" f
  let trafficClass ← withDefault none (nullable? integer?) "class_id" f
  let role ← withDefault "d" text? "role" f
  let mac ← withDefault none (nullable? text?) "mac" f
  return ⟨id, policy, trafficClass, role, mac⟩

def readWindow (form : ListRows) (n : Node) : Option WindowRow := do
  let f ← n.fields? form ["id", "policy_id", "weekday", "start", "end"]
  let id ← required integer? "id" f
  let policy ← required integer? "policy_id" f
  let weekday ← required integer? "weekday" f
  let start ← required text? "start" f
  let stop ← required text? "end" f
  return ⟨id, policy, weekday, start, stop⟩

/-- Reads every row of a table. -/
def readRows {α : Type} (read : Node → Option α) (n : Node) : Option (List α) := do
  let items ← n.list?
  items.mapM read

/-- Reads a catalog. A table that is not there is empty. -/
def ofNode? (form : ListRows) (n : Node) : Option Catalog := do
  let f ← n.fields? form
    ["traffic_classes", "cidrs", "ports", "class_cidrs", "class_ports", "policies", "targets",
      "time_windows"]
  let classes ← withDefault [] (readRows (readClass form)) "traffic_classes" f
  let cidrs ← withDefault [] (readRows (readCidr form)) "cidrs" f
  let ports ← withDefault [] (readRows (readPort form)) "ports" f
  let classCidrs ← withDefault [] (readRows (readClassCidr form)) "class_cidrs" f
  let classPorts ← withDefault [] (readRows (readClassPort form)) "class_ports" f
  let policies ← withDefault [] (readRows (readPolicy form)) "policies" f
  let targets ← withDefault [] (readRows (readTarget form)) "targets" f
  let windows ← withDefault [] (readRows (readWindow form)) "time_windows" f
  return ⟨classes, cidrs, ports, classCidrs, classPorts, policies, targets, windows⟩

end Catalog

end TrafficWarden
