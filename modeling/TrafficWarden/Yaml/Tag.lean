import TrafficWarden.Text.Ascii
import TrafficWarden.Text.Numeral
import TrafficWarden.Yaml.Token
import TrafficWarden.Yaml.Cursor

/-!
# Anchors, tags and directives of YAML

A tag is a handle and a suffix; a directive of the document can say what a handle stands for. The
bytes of a tag may be written as percent escapes.
-/

namespace TrafficWarden.Yaml

def isNameChar (c : Char) : Bool := Text.isAlphanumeric c || c == '_' || c == '-'

/-- Characters of a tag, percent escapes apart. -/
def isTagChar (c : Char) : Bool :=
  isNameChar c || [';', '/', '?', ':', '@', '&', '=', '+', '$', '.', '!', '~', '*', '\'', '(',
    ')'].contains c

/-- Characters that may follow the name of an anchor or an alias. -/
def endsName (c : Cursor) : Bool :=
  c.atSpace || c.peek?.any fun x => ['?', ':', ',', ']', '\x7d', '%', '@', '`'].contains x

def readAnchorName (c : Cursor) : Option (String × Cursor) :=
  let (name, c) := (c.skip 1).span isNameChar
  if name.isEmpty || !endsName c then none else some (String.ofList name, c)

def readByte (c : Cursor) : Option (Nat × Cursor) :=
  match c.rest with
  | '%' :: a :: b :: _ => do
    return ((← Text.hexValue? a) * 16 + (← Text.hexValue? b), c.skip 3)
  | _ => none

/-- The length of the encoding of a character from its first byte. -/
def encodedLength? (b : Nat) : Option Nat :=
  if b < 0x80 then some 1
  else if 0xC0 ≤ b && b < 0xE0 then some 2
  else if 0xE0 ≤ b && b < 0xF0 then some 3
  else if 0xF0 ≤ b && b < 0xF8 then some 4
  else none

def readContinuation : Nat → Cursor → Option (List Nat × Cursor)
  | 0, c => some ([], c)
  | n + 1, c => do
    let (b, c) ← readByte c
    if b < 0x80 || 0xC0 ≤ b then none
    else
      let (bs, c) ← readContinuation n c
      return (b :: bs, c)

def readEncoded (c : Cursor) : Option (List Nat × Cursor) := do
  let (b, c) ← readByte c
  let length ← encodedLength? b
  let (bs, c) ← readContinuation (length - 1) c
  return (b :: bs, c)

def readTagBytes (ok : Char → Bool) : Nat → Cursor → Option (List Nat × Cursor)
  | 0, c => some ([], c)
  | fuel + 1, c =>
    match c.peek? with
    | some x =>
      if x == '%' then do
        let (bs, c) ← readEncoded c
        let (more, c) ← readTagBytes ok fuel c
        return (bs ++ more, c)
      else if ok x then do
        let (more, c) ← readTagBytes ok fuel (c.skip 1)
        return (x.toNat :: more, c)
      else some ([], c)
    | none => some ([], c)

/-- The text of a run of bytes. A run that encodes no text is a tag of no meaning, and stands as a
replacement mark. -/
def textOfBytes (bs : List Nat) : String :=
  (String.fromUTF8? ⟨(bs.map Nat.toUInt8).toArray⟩).getD "\uFFFD"

/-- The suffix of a tag after what was read as its handle; together they may not be empty. -/
def readTagSuffix (verbatim : Bool) (head : List Char) (c : Cursor) :
    Option (String × Cursor) := do
  let ok := fun x => isTagChar x || (verbatim && (x == ',' || x == '[' || x == ']'))
  let (bs, c) ← readTagBytes ok c.fuel c
  if bs.isEmpty && head.isEmpty then none
  else return (textOfBytes ((head.drop 1).map Char.toNat ++ bs), c)

/-- An exclamation mark, a name, and an exclamation mark after it if there is one. -/
def readHandle (c : Cursor) : Option (List Char × Cursor) :=
  if !c.sees '!' then none
  else
    let (name, c) := (c.skip 1).span isNameChar
    if c.sees '!' then some ('!' :: name ++ ['!'], c.skip 1) else some ('!' :: name, c)

def isFullHandle (handle : List Char) : Bool := 1 < handle.length && handle.getLast? == some '!'

def readTagParts (c : Cursor) : Option ((String × String) × Cursor) :=
  if c.rest[1]? == some '<' then do
    let (suffix, c) ← readTagSuffix true [] (c.skip 2)
    if c.sees '>' then return (("", suffix), c.skip 1) else none
  else do
    let (handle, after) ← readHandle c
    if isFullHandle handle then
      let (suffix, c) ← readTagSuffix false [] after
      return ((String.ofList handle, suffix), c)
    else
      let (suffix, c) ← readTagSuffix false handle after
      return (if suffix = "" then ("", "!") else ("!", suffix), c)

/-- A tag; in brackets a comma may follow it at once. -/
def readTag (flow : Bool) (c : Cursor) : Option (Token × Cursor) := do
  let ((handle, suffix), c) ← readTagParts c
  if c.atSpace || (flow && c.sees ',') then return (.tag handle suffix, c) else none

def readVersionNumber (c : Cursor) : Option (Nat × Cursor) :=
  let (digits, c) := c.span Text.isDigit
  if digits.isEmpty || 9 < digits.length then none else some (Text.digitsValue digits, c)

def readVersion (c : Cursor) : Option (Token × Cursor) := do
  let (major, c) ← readVersionNumber (c.skipWhile isBlank)
  if !c.sees '.' then none
  else
    let (minor, c) ← readVersionNumber (c.skip 1)
    return (.version major minor, c)

def readTagHandle (c : Cursor) : Option (Token × Cursor) := do
  let (handle, c) ← readHandle (c.skipWhile isBlank)
  if !(isFullHandle handle || handle == ['!']) || !c.atBlank then none
  else
    let (start, c) ← readTagSuffix true [] (c.skipWhile isBlank)
    if c.atSpace then return (.tagHandle (String.ofList handle) start, c) else none

def readDirective (c : Cursor) : Option (Token × Cursor) := do
  let (name, c) := (c.skip 1).span isNameChar
  if !c.atSpace then none
  else
    let (token, c) ← match String.ofList name with
      | "YAML" => readVersion c
      | "TAG" => readTagHandle c
      | _ => none
    let c := c.skipWhile isBlank
    let c := if c.sees '#' then c.skipWhile (fun x => !isBreak x) else c
    if c.breakOrEnd then return (token, c.skipBreak) else none

end TrafficWarden.Yaml
