import TrafficWarden.Text.Ascii
import TrafficWarden.Yaml.Token
import TrafficWarden.Yaml.Cursor

/-!
# Literal and folded scalars of YAML

The lines below the header of a block scalar are its text, up to a line that is not indented. In a
folded one a single line break between two lines that begin with no blank becomes a space.
-/

namespace TrafficWarden.Yaml

inductive Chomping where
  | strip
  | clip
  | keep
deriving DecidableEq, Repr

def readChomping (c : Cursor) : Option (Chomping × Cursor) :=
  if c.sees '+' then some (.keep, c.skip 1)
  else if c.sees '-' then some (.strip, c.skip 1)
  else none

def readIndentation (c : Cursor) : Option (Option Nat × Cursor) :=
  match c.peek?.bind Text.digitValue? with
  | some 0 => none
  | some n => some (some n, c.skip 1)
  | none => some (none, c)

/-- The header of a block scalar after its mark, up to the line break. -/
def readBlockHeader (c : Cursor) : Option (Chomping × Option Nat × Cursor) := do
  match readChomping c with
  | some (chomping, c) =>
    let (width, c) ← readIndentation c
    return (chomping, width, c)
  | none =>
    let (width, c) ← readIndentation c
    match width, readChomping c with
    | some _, some (chomping, c) => return (chomping, width, c)
    | _, _ => return (.clip, width, c)

def skipBlockHeader (c : Cursor) : Option Cursor :=
  let c := c.skipWhile isBlank
  let c := if c.sees '#' then c.skipWhile (fun x => !isBreak x) else c
  if c.breakOrEnd then some c.skipBreak else none

/-- Empty lines and the indentation of the next line, which is at most the given one. The greatest
column reached and the breaks are gathered. A tabulator may not be part of the indentation. -/
def readEmptyLines (indent : Option Nat) :
    Nat → Nat → List Char → Cursor → Option (Nat × List Char × Cursor)
  | 0, widest, breaks, c => some (widest, breaks, c)
  | fuel + 1, widest, breaks, c =>
    let spaces := (c.rest.takeWhile (· == ' ')).length
    let c := c.skip (match indent with
      | some n => min spaces (n - c.column)
      | none => spaces)
    let widest := max widest c.column
    if c.sees '\t' && indent.all (c.column < ·) then none
    else if c.atBreak then
      let (text, c) := c.readBreak
      readEmptyLines indent fuel widest (breaks ++ text) c
    else some (widest, breaks, c)

/-- The lines of a block scalar: its text without the last break and the empty lines after it,
that break, and those lines. -/
def readBlockLines (literal : Bool) (indent : Nat) :
    Nat → List Char → Bool → List Char → List Char → Cursor →
      Option (List Char × List Char × List Char × Cursor)
  | 0, text, _, last, empty, c => some (text, last, empty, c)
  | fuel + 1, text, blankBefore, last, empty, c =>
    if c.column ≠ indent || c.atEnd then some (text, last, empty, c)
    else do
      let blank := c.atBlank
      let joint :=
        if !literal && last == ['\n'] && !blankBefore && !blank then
          (if empty.isEmpty then [' '] else empty)
        else last ++ empty
      let (line, c) := c.span (fun x => !isBreak x)
      let (last, c) := c.readBreak
      let (_, empty, c) ← readEmptyLines (some indent) c.fuel 0 [] c
      readBlockLines literal indent fuel (text ++ joint ++ line) blank last empty c

/-- A block scalar after its mark. `outer` is the indentation around it. -/
def readBlock (literal : Bool) (outer : Option Nat) (c : Cursor) :
    Option (List Char × Cursor) := do
  let (chomping, width, c) ← readBlockHeader c
  let c ← skipBlockHeader c
  let given := width.map (outer.getD 0 + ·)
  let (widest, empty, c) ← readEmptyLines given c.fuel 0 [] c
  let indent := given.getD (max widest (max (outer.elim 0 (· + 1)) 1))
  let (text, last, empty, c) ← readBlockLines literal indent c.fuel [] false [] empty c
  match chomping with
  | .strip => return (text, c)
  | .clip => return (text ++ last, c)
  | .keep => return (text ++ last ++ empty, c)

end TrafficWarden.Yaml
