import TrafficWarden.Yaml.Gap

/-!
# Plain scalars of YAML

A plain scalar has no quotes. It ends before a colon with white space after it, before a comment,
before a line that is not indented, and in brackets also before a comma or a bracket.
-/

namespace TrafficWarden.Yaml

/-- Characters that end a plain scalar in brackets. -/
def isFlowMark (c : Char) : Bool :=
  c == ',' || c == '[' || c == ']' || c == '\x7b' || c == '\x7d'

/-- Reads up to white space or the end of the scalar. In brackets a colon may not stand before a
bracket, a comma or a question mark. -/
def readWord (flow : Bool) : Nat → Cursor → Option (List Char × Cursor)
  | 0, c => some ([], c)
  | fuel + 1, c =>
    if c.atSpace then some ([], c)
    else if flow && c.sees ':' && c.rest[1]?.any (fun x => isFlowMark x || x == '?') then none
    else if (c.sees ':' && c.spaceAhead 1) || (flow && c.peek?.any isFlowMark) then some ([], c)
    else match c.peek? with
      | some x => (readWord flow fuel (c.skip 1)).map fun (word, c) => (x :: word, c)
      | none => some ([], c)

/-- Continues a plain scalar after a gap. The second result tells whether the gap after the scalar
has a line break. -/
def readPlain (flow : Bool) (indent : Nat) :
    Nat → List Char → Gap → Cursor → Option (List Char × Bool × Cursor)
  | 0, text, g, c => some (text, g.broken, c)
  | fuel + 1, text, g, c =>
    if c.atDocumentMark || c.sees '#' then some (text, g.broken, c)
    else do
      let (word, c) ← readWord flow c.fuel c
      if word.isEmpty then return (text, g.broken, c)
      else
        let text := text ++ g.text ++ word
        if !c.atBlank && !c.atBreak then return (text, false, c)
        else
          let (g, c) ← readGap indent c.fuel Gap.none c
          if !flow && c.column < indent then return (text, g.broken, c)
          else readPlain flow indent fuel text g c

end TrafficWarden.Yaml
