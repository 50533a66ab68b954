import TrafficWarden.Text.Ascii
import TrafficWarden.Yaml.Gap

/-!
# Quoted scalars of YAML

A single quote within single quotes is written twice. Within double quotes a backslash begins an
escape, and one at the end of a line joins the line to the next.
-/

namespace TrafficWarden.Yaml

def hexNumber? (digits : List Char) : Option Nat :=
  digits.foldlM (fun value c => (Text.hexValue? c).map (value * 16 + ·)) 0

def readCode (width : Nat) (c : Cursor) : Option (Char × Cursor) := do
  let digits := (c.rest.drop 2).take width
  if digits.length ≠ width then none
  else
    let n ← hexNumber? digits
    if (0xD800 ≤ n && n ≤ 0xDFFF) || 0x10FFFF < n then none
    else return (Char.ofNat n, c.skip (width + 2))

def escapeOf? : Char → Option Char
  | '0' => some (Char.ofNat 0)
  | 'a' => some (Char.ofNat 7)
  | 'b' => some (Char.ofNat 8)
  | 't' => some '\t'
  | '\t' => some '\t'
  | 'n' => some '\n'
  | 'v' => some (Char.ofNat 11)
  | 'f' => some (Char.ofNat 12)
  | 'r' => some '\r'
  | 'e' => some (Char.ofNat 27)
  | ' ' => some ' '
  | '"' => some '"'
  | '/' => some '/'
  | '\\' => some '\\'
  | 'N' => some '\u0085'
  | '_' => some '\u00A0'
  | 'L' => some '\u2028'
  | 'P' => some '\u2029'
  | _ => none

def readEscape (c : Cursor) : Option (Char × Cursor) := do
  match ← c.rest[1]? with
  | 'x' => readCode 2 c
  | 'u' => readCode 4 c
  | 'U' => readCode 8 c
  | x => return (← escapeOf? x, c.skip 2)

/-- Reads up to white space, to the closing quote or past an escaped line break; the second result
tells whether there was one. -/
def readQuotedWord (quote : Char) : Nat → Cursor → Option (List Char × Bool × Cursor)
  | 0, c => some ([], false, c)
  | fuel + 1, c =>
    if c.atSpace then some ([], false, c)
    else match c.peek? with
      | none => some ([], false, c)
      | some x =>
        if x == '\'' && quote == '\'' && c.rest[1]? == some '\'' then
          (readQuotedWord quote fuel (c.skip 2)).map fun (word, r) => ('\'' :: word, r)
        else if x == quote then some ([], false, c)
        else if x == '\\' && quote == '"' then
          if c.rest[1]?.any isBreak then some ([], true, (c.skip 1).skipBreak)
          else do
            let (x, c) ← readEscape c
            let (word, r) ← readQuotedWord quote fuel c
            return (x :: word, r)
        else (readQuotedWord quote fuel (c.skip 1)).map fun (word, r) => (x :: word, r)

/-- Continues a quoted scalar, up to and with its closing quote. -/
def readQuoted (quote : Char) : Nat → List Char → Cursor → Option (List Char × Cursor)
  | 0, _, _ => none
  | fuel + 1, text, c => do
    if c.atDocumentMark || c.atEnd then none
    else
      let (word, joined, c) ← readQuotedWord quote c.fuel c
      let text := text ++ word
      if c.sees quote then return (text, c.skip 1)
      else
        let (g, c) ← readGap 0 c.fuel (if joined then .escaped else .none) c
        readQuoted quote fuel (text ++ g.text) c

end TrafficWarden.Yaml
