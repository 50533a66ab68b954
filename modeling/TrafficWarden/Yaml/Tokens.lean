import TrafficWarden.Yaml.Block
import TrafficWarden.Yaml.Plain
import TrafficWarden.Yaml.Quoted
import TrafficWarden.Yaml.Tag

/-!
# From YAML texts to tokens

Outside brackets the columns of keys and dashes open and close collections. A key is recognized by
the colon after it: what could be one is remembered until then, so that the tokens that announce it
can still be put before it. A key ends on its line and within 1024 characters.
-/

namespace TrafficWarden.Yaml

/-- A place where a key may have begun. It must be one if it stands where the table around it has
its keys. -/
structure KeyStart where
  required : Bool
  token : Nat
  index : Nat
  line : Nat
  column : Nat
deriving Repr

/-- The tokens before a cursor, the newest one first, and what they leave open: the columns of the
indented collections, the possible key within each pair of brackets, the innermost first, and the
possible key outside them. -/
structure Lexing where
  cursor : Cursor
  tokens : List Token
  columns : List Nat
  brackets : List (Option KeyStart)
  start : Option KeyStart
  keyAllowed : Bool
deriving Repr

namespace Lexing

def ofText (cs : List Char) : Lexing := ⟨.ofText cs, [], [], [], none, true⟩

/-- Whether the cursor is within brackets. -/
def flow (s : Lexing) : Bool := !s.brackets.isEmpty

/-- The possible key at the innermost level. -/
def keyStart? (s : Lexing) : Option KeyStart :=
  match s.brackets with
  | k :: _ => k
  | [] => s.start

def setKeyStart (k : Option KeyStart) (s : Lexing) : Lexing :=
  match s.brackets with
  | _ :: outer => { s with brackets := k :: outer }
  | [] => { s with start := k }

def emit (t : Token) (s : Lexing) : Lexing := { s with tokens := t :: s.tokens }

def moveTo (c : Cursor) (s : Lexing) : Lexing := { s with cursor := c }

def allowKey (allowed : Bool) (s : Lexing) : Lexing := { s with keyAllowed := allowed }

/-- Emits a token of the given number of characters at the cursor. -/
def emitAt (t : Token) (n : Nat) (s : Lexing) : Lexing := (s.emit t).moveTo (s.cursor.skip n)

/-- Puts a token before the one of the given number. -/
def emitBefore (number : Nat) (t : Token) (s : Lexing) : Lexing :=
  let later := s.tokens.length - number
  { s with tokens := s.tokens.take later ++ t :: s.tokens.drop later }

/-- Forgets a possible key, which must not be a required one. -/
def dropKeyStart (s : Lexing) : Option Lexing :=
  if s.keyStart?.any (·.required) then none else some (s.setKeyStart none)

/-- Remembers the cursor as the place where a key may begin. -/
def saveKeyStart (s : Lexing) : Option Lexing :=
  if !s.keyAllowed then some s
  else
    let required := !s.flow && s.columns.head? == some s.cursor.column
    s.dropKeyStart.map (setKeyStart
      (some ⟨required, s.tokens.length, s.cursor.index, s.cursor.line, s.cursor.column⟩))

/-- The greatest length of a key. -/
def keyLimit : Nat := 1024

/-- A possible key as it looks from a later place; `none` if it was required and cannot be one. -/
def freshKeyStart (c : Cursor) : Option KeyStart → Option (Option KeyStart)
  | none => some none
  | some k =>
    if k.line < c.line || k.index + keyLimit < c.index then
      if k.required then none else some none
    else some (some k)

/-- Forgets the possible keys that are too far back. -/
def dropStaleKeys (s : Lexing) : Option Lexing := do
  let start ← freshKeyStart s.cursor s.start
  let brackets ← s.brackets.mapM (freshKeyStart s.cursor)
  return { s with start, brackets }

/-- Opens an indented collection at a column, if it is further right than the last one. -/
def indentTo (column : Nat) (before : Option Nat) (t : Token) (s : Lexing) : Lexing :=
  if s.flow || s.columns.head?.any (column ≤ ·) then s
  else
    let s := { s with columns := column :: s.columns }
    match before with
    | some number => s.emitBefore number t
    | none => s.emit t

/-- Closes the indented collections further right than a column. -/
def dedentTo (column : Nat) (s : Lexing) : Lexing :=
  if s.flow then s
  else
    let closed := s.columns.takeWhile (column < ·)
    { s with
      columns := s.columns.drop closed.length
      tokens := List.replicate closed.length .blockEnd ++ s.tokens }

/-- Closes all indented collections. -/
def dedentAll (s : Lexing) : Lexing :=
  if s.flow then s
  else { s with
    columns := []
    tokens := List.replicate s.columns.length .blockEnd ++ s.tokens }

/-- Skips blanks, comments and line breaks. Where a key may begin outside brackets, a tabulator is
no blank. -/
def skipSpace : Nat → Lexing → Lexing
  | 0, s => s
  | fuel + 1, s =>
    let blank := fun x => x == ' ' || ((s.flow || !s.keyAllowed) && x == '\t')
    let c := s.cursor.skipWhile blank
    let c := if c.sees '#' then c.skipWhile (fun x => !isBreak x) else c
    if c.atBreak then
      skipSpace fuel ((s.moveTo c.skipBreak).allowKey (s.keyAllowed || !s.flow))
    else s.moveTo c

def addDirective (s : Lexing) : Option Lexing := do
  let s ← s.dedentAll.dropKeyStart
  let (t, c) ← readDirective s.cursor
  return ((s.allowKey false).emit t).moveTo c

def addDocumentMark (s : Lexing) : Option Lexing := do
  let s ← s.dedentAll.dropKeyStart
  let t := if s.cursor.sees '-' then Token.documentStart else .documentEnd
  return (s.allowKey false).emitAt t 3

def openBracket (t : Token) (s : Lexing) : Option Lexing := do
  let s ← s.saveKeyStart
  return { (s.allowKey true).emitAt t 1 with brackets := none :: s.brackets }

def closeBracket (t : Token) (s : Lexing) : Option Lexing := do
  let s ← s.dropKeyStart
  return { (s.allowKey false).emitAt t 1 with brackets := s.brackets.drop 1 }

def addComma (s : Lexing) : Option Lexing := do
  return ((← s.dropKeyStart).allowKey true).emitAt .comma 1

def addDash (s : Lexing) : Option Lexing :=
  if !s.flow && !s.keyAllowed then none
  else do
    let s ← (s.indentTo s.cursor.column none .blockList).dropKeyStart
    return (s.allowKey true).emitAt .blockEntry 1

def addKeyMark (s : Lexing) : Option Lexing :=
  if !s.flow && !s.keyAllowed then none
  else do
    let s ← (s.indentTo s.cursor.column none .blockTable).dropKeyStart
    return (s.allowKey !s.flow).emitAt .key 1

/-- A colon: it makes a key of the possible one, or stands for an empty key. -/
def addColon (s : Lexing) : Option Lexing :=
  match s.keyStart? with
  | some k =>
    let s := (s.emitBefore k.token .key).indentTo k.column (some k.token) .blockTable
    some (((s.setKeyStart none).allowKey false).emitAt .value 1)
  | none =>
    if s.flow then some ((s.allowKey false).emitAt .value 1)
    else if !s.keyAllowed then none
    else
      some (((s.indentTo s.cursor.column none .blockTable).allowKey true).emitAt .value 1)

def addName (t : String → Token) (s : Lexing) : Option Lexing := do
  let s ← s.saveKeyStart
  let (name, c) ← readAnchorName s.cursor
  return ((s.allowKey false).emit (t name)).moveTo c

def addTag (s : Lexing) : Option Lexing := do
  let s ← s.saveKeyStart
  let (t, c) ← readTag s.flow s.cursor
  return ((s.allowKey false).emit t).moveTo c

def addBlock (literal : Bool) (s : Lexing) : Option Lexing := do
  let s ← s.dropKeyStart
  let (text, c) ← readBlock literal s.columns.head? (s.cursor.skip 1)
  let style := if literal then ScalarStyle.literal else .folded
  return ((s.allowKey true).emit (.scalar (String.ofList text) style)).moveTo c

def addQuoted (quote : Char) (s : Lexing) : Option Lexing := do
  let s ← s.saveKeyStart
  let c := s.cursor.skip 1
  let (text, c) ← readQuoted quote c.fuel [] c
  return ((s.allowKey false).emit (.scalar (String.ofList text) .quoted)).moveTo c

def addPlain (s : Lexing) : Option Lexing := do
  let s ← s.saveKeyStart
  let indent := s.columns.head?.elim 0 (· + 1)
  let (text, broken, c) ← readPlain s.flow indent s.cursor.fuel [] .none s.cursor
  return ((s.allowKey broken).emit (.scalar (String.ofList text) .plain)).moveTo c

/-- Marks that no plain scalar begins with, unless it is a dash, a colon or a question mark before
other characters. -/
def isMark (c : Char) : Bool :=
  ['-', '?', ':', ',', '[', ']', '\x7b', '\x7d', '#', '&', '*', '!', '|', '>', '\'', '"', '%', '@',
    '\x60'].contains c

/-- Adds the token that begins with a character. -/
def addToken (x : Char) (s : Lexing) : Option Lexing :=
  let c := s.cursor
  let loose := s.flow || c.spaceAhead 1
  if c.column == 0 && x == '%' then s.addDirective
  else if c.atDocumentMark then s.addDocumentMark
  else match x with
    | '[' => s.openBracket .listOpen
    | '\x7b' => s.openBracket .tableOpen
    | ']' => s.closeBracket .listClose
    | '\x7d' => s.closeBracket .tableClose
    | ',' => s.addComma
    | '*' => s.addName .alias
    | '&' => s.addName .anchor
    | '!' => s.addTag
    | '\'' => s.addQuoted '\''
    | '"' => s.addQuoted '"'
    | '-' =>
      if c.spaceAhead 1 then s.addDash else s.addPlain
    | '?' => if loose then s.addKeyMark else s.addPlain
    | ':' => if loose then s.addColon else s.addPlain
    | '|' => if s.flow then none else s.addBlock true
    | '>' => if s.flow then none else s.addBlock false
    | _ => if isMark x || isBlankOrBreak x then none else s.addPlain

/-- Adds the tokens up to the next character that begins one; at the end the token of the end. -/
def next (s : Lexing) : Option Lexing := do
  let s ← (skipSpace s.cursor.fuel s).dropStaleKeys
  let s := s.dedentTo s.cursor.column
  match s.cursor.peek? with
  | some x => s.addToken x
  | none => return (← s.dedentAll.dropKeyStart).emit .streamEnd

end Lexing

/-- The tokens of the rest of a text. -/
def tokensFrom : Nat → Lexing → Option (List Token)
  | 0, _ => none
  | fuel + 1, s => do
    let s ← s.next
    if s.tokens.head? == some .streamEnd then return s.tokens.reverse else tokensFrom fuel s

/-- The tokens of a text without characters that are not printable. -/
def tokens? (cs : List Char) : Option (List Token) :=
  if cs.all isPrintable then tokensFrom (cs.length + 1) (.ofText cs) else none

end TrafficWarden.Yaml
