import TrafficWarden.Json.Writer
import TrafficWarden.Yaml.Written

/-!
# Writing YAML

Every item and member has lines of its own. Members are indented by two columns within their
container, and the items of a member not at all; an empty container is written in brackets.
-/

namespace TrafficWarden.Yaml

def pad (depth : Nat) : String := String.ofList (spaces depth)

def leafLine (indent : Nat) : Json → String
  | .string s => scalarLine indent s
  | leaf => leaf.leafText ++ "\n"

mutual

def memberValue (depth : Nat) : Json → String
  | .array [] => " []\n"
  | .array items => "\n" ++ pad depth ++ itemLines depth items
  | .object [] => " \x7b\x7d\n"
  | .object members => "\n" ++ pad (depth + 2) ++ memberLines (depth + 2) members
  | leaf => " " ++ leafLine (depth + 2) leaf

def itemValue (depth : Nat) : Json → String
  | .array [] => "[]\n"
  | .array items => itemLines (depth + 2) items
  | .object [] => "\x7b\x7d\n"
  | .object members => memberLines (depth + 2) members
  | leaf => leafLine (depth + 2) leaf

/-- Items at a depth, without the indentation of the first one. -/
def itemLines (depth : Nat) : List Json → String
  | [] => ""
  | [item] => "- " ++ itemValue depth item
  | item :: items => "- " ++ itemValue depth item ++ pad depth ++ itemLines depth items

/-- Members at a depth, without the indentation of the first one. -/
def memberLines (depth : Nat) : List (String × Json) → String
  | [] => ""
  | [(name, value)] => keyText name ++ ":" ++ memberValue depth value
  | (name, value) :: members =>
    keyText name ++ ":" ++ memberValue depth value ++ pad depth ++ memberLines depth members

end

def write : Json → String
  | .array [] => "[]\n"
  | .array items => itemLines 0 items
  | .object [] => "\x7b\x7d\n"
  | .object members => memberLines 0 members
  | leaf => leafLine 2 leaf

end TrafficWarden.Yaml
