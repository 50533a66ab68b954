import TrafficWarden.Json.Basic

/-!
# Writing JSON

The compact form has no blanks. The indented form sets every item and member on a line of its own,
two spaces deeper than its container.
-/

namespace TrafficWarden.Json

def hexDigit (n : Nat) : Char :=
  if n < 10 then Char.ofNat ('0'.toNat + n) else Char.ofNat ('a'.toNat + (n - 10))

/-- A character within a string: quotes, backslashes and control characters are escaped. -/
def writeChar (c : Char) : List Char :=
  if c = '"' then ['\\', '"']
  else if c = '\\' then ['\\', '\\']
  else if c = '\n' then ['\\', 'n']
  else if c = '\r' then ['\\', 'r']
  else if c = '\t' then ['\\', 't']
  else if c.toNat = 8 then ['\\', 'b']
  else if c.toNat = 12 then ['\\', 'f']
  else if c.toNat < 0x20 then
    ['\\', 'u', '0', '0', hexDigit (c.toNat / 16), hexDigit (c.toNat % 16)]
  else [c]

def quoted (s : String) : String :=
  "\"" ++ String.ofList (s.toList.flatMap writeChar) ++ "\""

/-- The text of a value that is no container. -/
def leafText : Json → String
  | .bool true => "true"
  | .bool false => "false"
  | .integer n => toString n
  | .real text => text
  | .string s => quoted s
  | _ => "null"

mutual

def compact : Json → String
  | .array items => "[" ++ compactItems items ++ "]"
  | .object members => "\x7b" ++ compactMembers members ++ "\x7d"
  | leaf => leafText leaf

def compactItems : List Json → String
  | [] => ""
  | [item] => compact item
  | item :: items => compact item ++ "," ++ compactItems items

def compactMembers : List (String × Json) → String
  | [] => ""
  | [(name, value)] => quoted name ++ ":" ++ compact value
  | (name, value) :: members =>
    quoted name ++ ":" ++ compact value ++ "," ++ compactMembers members

end

def indentation (depth : Nat) : String := String.ofList (List.replicate (2 * depth) ' ')

mutual

/-- The indented form of a value inside `depth` containers. -/
def indentedAt (depth : Nat) : Json → String
  | .array [] => "[]"
  | .array items =>
    "[\n" ++ indentedItems (depth + 1) items ++ "\n" ++ indentation depth ++ "]"
  | .object [] => "\x7b\x7d"
  | .object members =>
    "\x7b\n" ++ indentedMembers (depth + 1) members ++ "\n" ++ indentation depth ++ "\x7d"
  | leaf => leafText leaf

def indentedItems (depth : Nat) : List Json → String
  | [] => ""
  | [item] => indentation depth ++ indentedAt depth item
  | item :: items =>
    indentation depth ++ indentedAt depth item ++ ",\n" ++ indentedItems depth items

def indentedMembers (depth : Nat) : List (String × Json) → String
  | [] => ""
  | [(name, value)] => indentation depth ++ quoted name ++ ": " ++ indentedAt depth value
  | (name, value) :: members =>
    indentation depth ++ quoted name ++ ": " ++ indentedAt depth value ++ ",\n" ++
      indentedMembers depth members

end

def indented (value : Json) : String := indentedAt 0 value

end TrafficWarden.Json
