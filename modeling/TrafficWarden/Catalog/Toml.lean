import TrafficWarden.Catalog.Document
import TrafficWarden.Toml.Reader

/-!
# Catalogs in TOML

A row may be a table or an array that begins with its fields in order. No field is empty: one that
is to be empty is left out.
-/

namespace TrafficWarden

namespace Toml

mutual

/-- A TOML value as a node of a document. -/
def toNode : Toml → Node
  | .string s => .scalar { Scalar.foreign with text := some s }
  | .integer n => .scalar { Scalar.foreign with integer := some n }
  | .float _ => .scalar .foreign
  | .bool b => .scalar { Scalar.foreign with bool := some b }
  | .datetime _ => .scalar .foreign
  | .array items => .list (toNodes items)
  | .table entries => .table (toNodeEntries entries)

def toNodes : List Toml → List Node
  | [] => []
  | item :: items => toNode item :: toNodes items

def toNodeEntries : List (String × Toml) → List (String × Node)
  | [] => []
  | (name, v) :: entries => (name, toNode v) :: toNodeEntries entries

end

end Toml

def Catalog.readToml? (text : String) : Option Catalog :=
  (Toml.read? text).bind fun v => ofNode? .loose v.toNode

end TrafficWarden
