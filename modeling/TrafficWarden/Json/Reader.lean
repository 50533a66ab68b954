import TrafficWarden.Json.Basic
import TrafficWarden.Text.Numeral

/-!
# Reading JSON

One value with blanks around it, up to the end of the text. The blanks are the space, the tabulator
and the two line breaks.
-/

namespace TrafficWarden.Json

def isSpace (c : Char) : Bool := c == ' ' || c == '\n' || c == '\t' || c == '\r'

def skipSpace (cs : List Char) : List Char := cs.dropWhile isSpace

def readUnit : List Char → Option (Nat × List Char)
  | a :: b :: c :: d :: rest => do
    let a ← Text.hexValue? a
    let b ← Text.hexValue? b
    let c ← Text.hexValue? c
    let d ← Text.hexValue? d
    return (((a * 16 + b) * 16 + c) * 16 + d, rest)
  | _ => none

/-- The character that stands for itself or for a control character after a backslash. -/
def simpleEscape? : Char → Option Char
  | '"' => some '"'
  | '\\' => some '\\'
  | '/' => some '/'
  | 'b' => some (Char.ofNat 8)
  | 'f' => some (Char.ofNat 12)
  | 'n' => some '\n'
  | 'r' => some '\r'
  | 't' => some '\t'
  | _ => none

/-- The part of a string up to its closing quote. A string that holds half of a surrogate pair
denotes nothing. -/
def readString : Nat → List Char → Option (Option (List Char) × List Char)
  | 0, _ => none
  | _ + 1, [] => none
  | _ + 1, '"' :: rest => some (some [], rest)
  | fuel + 1, '\\' :: 'u' :: rest => do
    let (unit, rest) ← readUnit rest
    if 0xDC00 ≤ unit && unit ≤ 0xDFFF then
      let (_, rest) ← readString fuel rest
      return (none, rest)
    else if 0xD800 ≤ unit && unit ≤ 0xDBFF then
      match rest with
      | '\\' :: 'u' :: low =>
        let (second, after) ← readUnit low
        if 0xDC00 ≤ second && second ≤ 0xDFFF then
          let (tail, rest) ← readString fuel after
          let code := 0x10000 + (unit - 0xD800) * 0x400 + (second - 0xDC00)
          return (tail.map (Char.ofNat code :: ·), rest)
        else
          let (_, rest) ← readString fuel rest
          return (none, rest)
      | _ =>
        let (_, rest) ← readString fuel rest
        return (none, rest)
    else
      let (tail, rest) ← readString fuel rest
      return (tail.map (Char.ofNat unit :: ·), rest)
  | fuel + 1, '\\' :: c :: rest => do
    let c ← simpleEscape? c
    let (tail, rest) ← readString fuel rest
    return (tail.map (c :: ·), rest)
  | fuel + 1, c :: rest =>
    if c.toNat < 0x20 || c == '\\' then none
    else do
      let (tail, rest) ← readString fuel rest
      return (tail.map (c :: ·), rest)

def spanDigits (cs : List Char) : List Char × List Char :=
  (cs.takeWhile Text.isDigit, cs.dropWhile Text.isDigit)

/-- A fraction after the integer part of a number: a point and at least one digit, or nothing. -/
def readFraction : List Char → Option (List Char × List Char)
  | '.' :: rest =>
    let (digits, rest) := spanDigits rest
    if digits.isEmpty then none else some ('.' :: digits, rest)
  | rest => some ([], rest)

def isExponentMark (c : Char) : Bool := c == 'e' || c == 'E'

/-- An exponent: its letter, a sign or none, and at least one digit; or nothing. -/
def readExponent : List Char → Option (List Char × List Char)
  | c :: rest =>
    if isExponentMark c then
      let (sign, rest) := match rest with
        | '+' :: rest => (['+'], rest)
        | '-' :: rest => (['-'], rest)
        | rest => ([], rest)
      let (digits, rest) := spanDigits rest
      if digits.isEmpty then none else some (c :: sign ++ digits, rest)
    else some ([], c :: rest)
  | [] => some ([], [])

/-- An integer that fits in 64 bits, with or without sign. A zero with a minus sign is no
integer. -/
def integerOf? (negative : Bool) (magnitude : Nat) : Option Int :=
  if negative then
    if magnitude = 0 ∨ 0x8000000000000000 < magnitude then none else some (-(magnitude : Int))
  else if magnitude ≤ 0xFFFFFFFFFFFFFFFF then some magnitude else none

/-- A number without sign. Its integer part has no leading zero. -/
def readMagnitude (negative : Bool) (cs : List Char) : Option (Json × List Char) := do
  let (whole, rest) := spanDigits cs
  if whole.isEmpty || (1 < whole.length && whole.head? == some '0') then none
  else
    let (fraction, rest) ← readFraction rest
    let (exponent, rest) ← readExponent rest
    let sign := if negative then ['-'] else []
    let written := Json.real (String.ofList (sign ++ whole ++ fraction ++ exponent))
    if fraction.isEmpty && exponent.isEmpty then
      match integerOf? negative (Text.digitsValue whole) with
      | some n => return (.integer n, rest)
      | none => return (written, rest)
    else return (written, rest)

def readNumber : List Char → Option (Json × List Char)
  | '-' :: rest => readMagnitude true rest
  | rest => readMagnitude false rest

/-- An object of the members, or a garbled value if a name denotes nothing. -/
def ofMembers (members : List (Option (List Char) × Json)) : Json :=
  match members.mapM fun (name, value) => name.map fun cs => (String.ofList cs, value) with
  | some members => .object members
  | none => .garbled

mutual

def readValue : Nat → List Char → Option (Json × List Char)
  | 0, _ => none
  | fuel + 1, cs =>
    match skipSpace cs with
    | 'n' :: 'u' :: 'l' :: 'l' :: rest => some (.null, rest)
    | 't' :: 'r' :: 'u' :: 'e' :: rest => some (.bool true, rest)
    | 'f' :: 'a' :: 'l' :: 's' :: 'e' :: rest => some (.bool false, rest)
    | '"' :: rest => do
      let (s, rest) ← readString (rest.length + 1) rest
      match s with
      | some s => return (.string (String.ofList s), rest)
      | none => return (.garbled, rest)
    | '[' :: rest =>
      match skipSpace rest with
      | ']' :: rest => some (.array [], rest)
      | rest => do
        let (items, rest) ← readItems fuel rest
        return (.array items, rest)
    | '\x7b' :: rest =>
      match skipSpace rest with
      | '\x7d' :: rest => some (.object [], rest)
      | rest => do
        let (members, rest) ← readMembers fuel rest
        return (ofMembers members, rest)
    | rest => readNumber rest

def readItems : Nat → List Char → Option (List Json × List Char)
  | 0, _ => none
  | fuel + 1, cs => do
    let (item, rest) ← readValue fuel cs
    match skipSpace rest with
    | ',' :: rest =>
      let (items, rest) ← readItems fuel rest
      return (item :: items, rest)
    | ']' :: rest => return ([item], rest)
    | _ => none

def readMembers : Nat → List Char → Option (List (Option (List Char) × Json) × List Char)
  | 0, _ => none
  | fuel + 1, cs =>
    match skipSpace cs with
    | '"' :: rest => do
      let (name, rest) ← readString (rest.length + 1) rest
      match skipSpace rest with
      | ':' :: rest =>
        let (value, rest) ← readValue fuel rest
        match skipSpace rest with
        | ',' :: rest =>
          let (members, rest) ← readMembers fuel rest
          return ((name, value) :: members, rest)
        | '\x7d' :: rest => return ([(name, value)], rest)
        | _ => none
      | _ => none
    | _ => none

end

def read? (text : String) : Option Json := do
  let cs := text.toList
  let (value, rest) ← readValue (2 * cs.length + 1) cs
  if (skipSpace rest).isEmpty then some value else none

end TrafficWarden.Json
