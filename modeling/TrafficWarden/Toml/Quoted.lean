import TrafficWarden.Text.Ascii

/-!
# Strings and keys of TOML

Basic strings have escapes and literal strings have none; both come on one line or, between three
quotes, on several. A line break in a string of several lines is one character, however it is
written.
-/

namespace TrafficWarden.Toml

def isBlank (c : Char) : Bool := c == ' ' || c == '\t'

def skipBlanks (cs : List Char) : List Char := cs.dropWhile isBlank

/-- Characters of a comment or a string: the tabulator and all but control characters. -/
def isPlain (c : Char) : Bool := c == '\t' || (0x20 ≤ c.toNat && c.toNat != 0x7F)

def readBreak : List Char → Option (List Char)
  | '\n' :: rest => some rest
  | '\r' :: '\n' :: rest => some rest
  | _ => none

def readHex : Nat → Nat → List Char → Option (Nat × List Char)
  | 0, value, cs => some (value, cs)
  | _ + 1, _, [] => none
  | n + 1, value, c :: rest => do
    let d ← Text.hexValue? c
    readHex n (value * 16 + d) rest

/-- The character of a code point that is no surrogate. -/
def scalar? (n : Nat) : Option Char :=
  if n < 0xD800 || (0xE000 ≤ n && n < 0x110000) then some (Char.ofNat n) else none

/-- The character of an escape, after the backslash. -/
def readEscape : List Char → Option (Char × List Char)
  | 'b' :: rest => some (Char.ofNat 8, rest)
  | 't' :: rest => some ('\t', rest)
  | 'n' :: rest => some ('\n', rest)
  | 'f' :: rest => some (Char.ofNat 12, rest)
  | 'r' :: rest => some ('\r', rest)
  | '"' :: rest => some ('"', rest)
  | '\\' :: rest => some ('\\', rest)
  | 'u' :: rest => do
    let (n, rest) ← readHex 4 0 rest
    return (← scalar? n, rest)
  | 'U' :: rest => do
    let (n, rest) ← readHex 8 0 rest
    return (← scalar? n, rest)
  | _ => none

def skipLines (cs : List Char) : Nat → List Char
  | 0 => cs
  | fuel + 1 =>
    match readBreak (skipBlanks cs) with
    | some rest => skipLines rest fuel
    | none => skipBlanks cs

def readBasic : Nat → List Char → Option (List Char × List Char)
  | 0, _ => none
  | _ + 1, [] => none
  | _ + 1, '"' :: rest => some ([], rest)
  | fuel + 1, '\\' :: rest => do
    let (c, rest) ← readEscape rest
    let (tail, rest) ← readBasic fuel rest
    return (c :: tail, rest)
  | fuel + 1, c :: rest =>
    if isPlain c then do
      let (tail, rest) ← readBasic fuel rest
      return (c :: tail, rest)
    else none

def readLiteral : List Char → Option (List Char × List Char)
  | [] => none
  | '\'' :: rest => some ([], rest)
  | c :: rest =>
    if isPlain c then do
      let (tail, rest) ← readLiteral rest
      return (c :: tail, rest)
    else none

/-- Up to two quotes before the three that close a string of several lines. -/
def readClosing (quote : Char) (cs : List Char) : Option (List Char × List Char) :=
  let run := cs.takeWhile (· == quote)
  if run.length < 3 then none
  else
    let extra := min (run.length - 3) 2
    some (List.replicate extra quote, cs.drop (extra + 3))

def readBasicLines : Nat → List Char → Option (List Char × List Char)
  | 0, _ => none
  | _ + 1, [] => none
  | fuel + 1, '"' :: rest =>
    match readClosing '"' ('"' :: rest) with
    | some closing => some closing
    | none => do
      let (tail, rest) ← readBasicLines fuel rest
      return ('"' :: tail, rest)
  | fuel + 1, '\\' :: rest =>
    -- a backslash at the end of a line joins it to the next text
    match readBreak (skipBlanks rest) with
    | some after => readBasicLines fuel (skipLines after after.length)
    | none => do
      let (c, rest) ← readEscape rest
      let (tail, rest) ← readBasicLines fuel rest
      return (c :: tail, rest)
  | fuel + 1, c :: rest =>
    match readBreak (c :: rest) with
    | some rest => do
      let (tail, rest) ← readBasicLines fuel rest
      return ('\n' :: tail, rest)
    | none =>
      if isPlain c then do
        let (tail, rest) ← readBasicLines fuel rest
        return (c :: tail, rest)
      else none

def readLiteralLines : Nat → List Char → Option (List Char × List Char)
  | 0, _ => none
  | _ + 1, [] => none
  | fuel + 1, '\'' :: rest =>
    match readClosing '\'' ('\'' :: rest) with
    | some closing => some closing
    | none => do
      let (tail, rest) ← readLiteralLines fuel rest
      return ('\'' :: tail, rest)
  | fuel + 1, c :: rest =>
    match readBreak (c :: rest) with
    | some rest => do
      let (tail, rest) ← readLiteralLines fuel rest
      return ('\n' :: tail, rest)
    | none =>
      if isPlain c then do
        let (tail, rest) ← readLiteralLines fuel rest
        return (c :: tail, rest)
      else none

def dropBreak (cs : List Char) : List Char := (readBreak cs).getD cs

def readString : List Char → Option (List Char × List Char)
  | '"' :: '"' :: '"' :: rest => readBasicLines (rest.length + 1) (dropBreak rest)
  | '"' :: rest => readBasic (rest.length + 1) rest
  | '\'' :: '\'' :: '\'' :: rest => readLiteralLines (rest.length + 1) (dropBreak rest)
  | '\'' :: rest => readLiteral rest
  | _ => none

def isBareKeyChar (c : Char) : Bool := Text.isAlphanumeric c || c == '_' || c == '-'

def readName : List Char → Option (String × List Char)
  | '"' :: rest => do
    let (cs, rest) ← readBasic (rest.length + 1) rest
    return (String.ofList cs, rest)
  | '\'' :: rest => do
    let (cs, rest) ← readLiteral rest
    return (String.ofList cs, rest)
  | cs =>
    let name := cs.takeWhile isBareKeyChar
    if name.isEmpty then none else some (String.ofList name, cs.dropWhile isBareKeyChar)

/-- Names with points between them, and blanks around the names. -/
def readNames : Nat → List Char → Option (List String × List Char)
  | 0, _ => none
  | fuel + 1, cs => do
    let (name, rest) ← readName (skipBlanks cs)
    match skipBlanks rest with
    | '.' :: rest =>
      let (names, rest) ← readNames fuel rest
      return (name :: names, rest)
    | rest => return ([name], rest)

def depthLimit : Nat := 80

/-- A key: the names before its last one, and the last one. -/
def readKey (cs : List Char) : Option ((List String × String) × List Char) := do
  let (names, rest) ← readNames (cs.length + 1) cs
  if depthLimit ≤ names.length then none
  else
    let last ← names.getLast?
    return ((names.dropLast, last), rest)

end TrafficWarden.Toml
