import TrafficWarden.Text.Ascii
import TrafficWarden.Yaml.Tree

/-!
# Values of YAML scalars

A scalar without quotes may be a number, a truth value or nothing, by its text alone. A literal
scalar is a number or a truth value only if its tag says so.
-/

namespace TrafficWarden.Yaml

def integerTag : String := "tag:yaml.org,2002:int"
def boolTag : String := "tag:yaml.org,2002:bool"
def nullTag : String := "tag:yaml.org,2002:null"

/-- The value of at least one digit of a radix. -/
def digits? (radix : Nat) : List Char → Option Nat
  | [] => none
  | cs => cs.foldlM (fun value c =>
    ((Text.hexValue? c).filter (· < radix)).map (value * radix + ·)) 0

/-- The radix that begins a numeral. -/
def radixOf : List Char → Nat × List Char
  | '0' :: 'x' :: rest => (16, rest)
  | '0' :: 'o' :: rest => (8, rest)
  | '0' :: 'b' :: rest => (2, rest)
  | rest => (10, rest)

/-- A numeral without sign. A decimal one has no zero before other digits. -/
def magnitude? (cs : List Char) : Option Nat :=
  let (radix, digits) := radixOf cs
  if radix = 10 && 1 < cs.length && cs.head? == some '0' then none else digits? radix digits

def integerText? : List Char → Option Int
  | '+' :: rest => (magnitude? rest).map Int.ofNat
  | '-' :: rest => (magnitude? rest).map fun n => -(n : Int)
  | rest => (magnitude? rest).map Int.ofNat

def boolText? : String → Option Bool
  | "true" => some true
  | "True" => some true
  | "TRUE" => some true
  | "false" => some false
  | "False" => some false
  | "FALSE" => some false
  | _ => none

def isNullText (s : String) : Bool := s == "null" || s == "Null" || s == "NULL" || s == "~"

namespace ScalarForm

/-- Whether the text of a scalar may be read as a value of a tag. -/
def mayBe (tag : String) (s : ScalarForm) : Bool :=
  s.style = .plain || (s.style = .literal && s.tag = some tag)

def integer? (s : ScalarForm) : Option Int :=
  if s.mayBe integerTag then integerText? s.text.toList else none

def bool? (s : ScalarForm) : Option Bool := if s.mayBe boolTag then boolText? s.text else none

def isBlank (s : ScalarForm) : Bool := s.style = .plain && s.text = ""

end ScalarForm

end TrafficWarden.Yaml
