/-!
# Places in YAML texts

A cursor knows the text that is still to be read and the line and column where it begins. Beside
the usual line breaks there are three of other scripts.
-/

namespace TrafficWarden.Yaml

def isBlank (c : Char) : Bool := c == ' ' || c == '\t'

/-- The breaks that are kept as they are in a scalar. -/
def isSeparator (c : Char) : Bool := c == '\u2028' || c == '\u2029'

def isBreak (c : Char) : Bool := c == '\n' || c == '\r' || c == '\u0085' || isSeparator c

def isBlankOrBreak (c : Char) : Bool := isBlank c || isBreak c

/-- Characters that a text may hold. -/
def isPrintable (c : Char) : Bool :=
  c == '\t' || c == '\n' || c == '\r' || (0x20 ≤ c.toNat && c.toNat ≤ 0x7E) || c == '\u0085' ||
    (0xA0 ≤ c.toNat && c.toNat ≤ 0xD7FF) ||
    (0xE000 ≤ c.toNat && c.toNat ≤ 0xFFFD && c.toNat != 0xFEFF) || 0x10000 ≤ c.toNat

structure Cursor where
  rest : List Char
  index : Nat
  line : Nat
  column : Nat
deriving Repr

namespace Cursor

def ofText (cs : List Char) : Cursor := ⟨cs, 0, 0, 0⟩

/-- The character at the cursor. -/
def peek? (c : Cursor) : Option Char := c.rest.head?

def sees (c : Cursor) (x : Char) : Bool := c.peek? == some x

/-- Whether a blank, a line break or the end of the text is `n` characters ahead. -/
def spaceAhead (c : Cursor) (n : Nat) : Bool :=
  match c.rest[n]? with
  | some x => isBlankOrBreak x
  | none => true

def atSpace (c : Cursor) : Bool := c.spaceAhead 0

def atBlank (c : Cursor) : Bool := c.peek?.any isBlank

def atBreak (c : Cursor) : Bool := c.peek?.any isBreak

def atEnd (c : Cursor) : Bool := c.rest.isEmpty

def breakOrEnd (c : Cursor) : Bool := c.atBreak || c.atEnd

/-- The cursor `n` characters further on the line. -/
def skip (c : Cursor) (n : Nat) : Cursor :=
  ⟨c.rest.drop n, c.index + n, c.line, c.column + n⟩

/-- The run of characters of a class, and the cursor after it. -/
def span (ok : Char → Bool) (c : Cursor) : List Char × Cursor :=
  let run := c.rest.takeWhile ok
  (run, c.skip run.length)

def skipWhile (ok : Char → Bool) (c : Cursor) : Cursor := (c.span ok).2

/-- The text of a line break at the cursor, and the cursor at the head of the next line. -/
def readBreak (c : Cursor) : List Char × Cursor :=
  match c.rest with
  | '\r' :: '\n' :: rest => (['\n'], ⟨rest, c.index + 2, c.line + 1, 0⟩)
  | x :: rest =>
    if isBreak x then
      ([if isSeparator x then x else '\n'], ⟨rest, c.index + 1, c.line + 1, 0⟩)
    else ([], c)
  | [] => ([], c)

def skipBreak (c : Cursor) : Cursor := c.readBreak.2

/-- Whether three dashes or three points stand alone at the head of a line. -/
def atDocumentMark (c : Cursor) : Bool :=
  c.column == 0 && (c.rest.take 3 == ['-', '-', '-'] || c.rest.take 3 == ['.', '.', '.']) &&
    c.spaceAhead 3

/-- A bound on the number of steps from the cursor to the end of the text. -/
def fuel (c : Cursor) : Nat := c.rest.length + 1

end Cursor

end TrafficWarden.Yaml
