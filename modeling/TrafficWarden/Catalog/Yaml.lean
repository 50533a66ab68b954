import TrafficWarden.Catalog.Document
import TrafficWarden.Yaml.Linked
import TrafficWarden.Yaml.Scalar

/-!
# Catalogs in YAML

A row is a table. Every scalar can be a text; one without quotes is empty where a field may be
empty if it says so, and a scalar without text stands for an empty list or table.
-/

namespace TrafficWarden

namespace Yaml

def ScalarForm.presence (s : ScalarForm) : Presence :=
  if s.style ≠ .plain then .present
  else match s.tag with
    | none => if s.text = "" || isNullText s.text then .absent else .present
    | some tag =>
      if tag ≠ nullTag then .present
      else if isNullText s.text then .absent
      else .unclear

def ScalarForm.toScalar (s : ScalarForm) : TrafficWarden.Scalar :=
  ⟨some s.text, s.integer?, s.bool?, s.presence, s.isBlank⟩

/-- The node that an alias stands for. -/
def Anchors.follow (a : Anchors) : Linked → Option Linked
  | .alias number => a.node? number
  | node => some node

/-- The name that a key is. -/
def Anchors.name? (a : Anchors) (key : Linked) : Option String :=
  match a.follow key with
  | some (.scalar s) => some s.text
  | _ => none

/-- A YAML node as a node of a document, down to a depth below which nothing is read. -/
def Anchors.toNode (a : Anchors) : Nat → Linked → Node
  | 0, _ => .unreadable
  | depth + 1, node =>
    match a.follow node with
    | some (.scalar s) => .scalar s.toScalar
    | some (.list items) => .list (items.map (a.toNode depth))
    | some (.table entries) =>
      match entries.mapM fun (key, value) => (a.name? key).map (·, a.toNode depth value) with
      | some entries => .table entries
      | none => .unreadable
    | _ => .unreadable

end Yaml

/-- The number of levels of a catalog: its tables, their rows, the fields of a row, and itself. -/
def Catalog.depth : Nat := 4

def Catalog.readYaml? (text : String) : Option Catalog := do
  match ← Yaml.read? text with
  | none => Catalog.ofNode? .refused (.table [])
  | some (root, anchors) => Catalog.ofNode? .refused (anchors.toNode Catalog.depth root)

end TrafficWarden
