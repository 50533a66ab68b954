import TrafficWarden.Text.Ascii

/-!
# JSON values

Objects keep the order of their members and members of one name. Numbers without fraction and
exponent that fit in 64 bits are integers; every other number is kept as it is written.
-/

namespace TrafficWarden

/-- A JSON value. A `garbled` value is well formed and denotes nothing: a string with half of a
surrogate pair, or an object with such a name. -/
inductive Json where
  | null
  | bool (b : Bool)
  | integer (n : Int)
  | real (text : String)
  | string (s : String)
  | garbled
  | array (items : List Json)
  | object (members : List (String × Json))
deriving Inhabited, Repr

namespace Json

/-- The first member of a name. -/
def lookup (name : String) : List (String × Json) → Option Json
  | [] => none
  | (key, value) :: rest => if key = name then some value else lookup name rest

def get? (name : String) : Json → Option Json
  | .object members => lookup name members
  | _ => none

def asString? : Json → Option String
  | .string s => some s
  | _ => none

def asInteger? : Json → Option Int
  | .integer n => some n
  | _ => none

def asBool? : Json → Option Bool
  | .bool b => some b
  | _ => none

def asArray? : Json → Option (List Json)
  | .array items => some items
  | _ => none

def ofOption {α : Type} (f : α → Json) : Option α → Json
  | none => .null
  | some a => f a

def strings (items : List String) : Json := .array (items.map .string)

def nat (n : Nat) : Json := .integer n

end Json

end TrafficWarden
