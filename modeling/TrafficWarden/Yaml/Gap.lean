import TrafficWarden.Yaml.Cursor

/-!
# White space within scalars

Blanks between two words are kept. A single line break between them is folded to a space, and of
several breaks the first is dropped; the blanks around line breaks are dropped.
-/

namespace TrafficWarden.Yaml

structure Gap where
  broken : Bool
  blanks : List Char
  first : List Char
  more : List Char
deriving Repr

namespace Gap

def none : Gap := ⟨false, [], [], []⟩

/-- A gap that begins with a line break that is not kept. -/
def escaped : Gap := ⟨true, [], [], []⟩

def addBlank (g : Gap) (c : Char) : Gap :=
  if g.broken then g else { g with blanks := g.blanks ++ [c] }

def addBreak (g : Gap) (text : List Char) : Gap :=
  if g.broken then { g with more := g.more ++ text } else ⟨true, [], text, []⟩

/-- The text that stands for a gap. -/
def text (g : Gap) : List Char :=
  if !g.broken then g.blanks
  else if g.first = ['\n'] then (if g.more.isEmpty then [' '] else g.more)
  else g.first ++ g.more

end Gap

/-- Reads blanks and line breaks. After a line break no tabulator may stand to the left of the
given column. -/
def readGap (indent : Nat) : Nat → Gap → Cursor → Option (Gap × Cursor)
  | 0, g, c => some (g, c)
  | fuel + 1, g, c =>
    match c.peek? with
    | some x =>
      if isBlank x then
        if g.broken && c.column < indent && x == '\t' then none
        else readGap indent fuel (g.addBlank x) (c.skip 1)
      else if isBreak x then
        let (text, c) := c.readBreak
        readGap indent fuel (g.addBreak text) c
      else some (g, c)
    | none => some (g, c)

end TrafficWarden.Yaml
