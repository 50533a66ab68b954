import TrafficWarden.Toml.Number
import TrafficWarden.Toml.Quoted
import TrafficWarden.Toml.Table
import TrafficWarden.Text.Mark

/-!
# Reading TOML

A document is read into statements, one a line, and the statements into a table.
-/

namespace TrafficWarden.Toml

def skipComment : List Char → Option (List Char)
  | '#' :: rest => some (rest.dropWhile isPlain)
  | _ => none

/-- Blanks, comments and line breaks. Every comment ends at a line break. -/
def skipSpace : Nat → List Char → List Char
  | 0, cs => cs
  | fuel + 1, cs =>
    match skipBlanks cs with
    | '#' :: rest =>
      match readBreak (rest.dropWhile isPlain) with
      | some rest => skipSpace fuel rest
      | none => '#' :: rest
    | cs =>
      match readBreak cs with
      | some rest => skipSpace fuel rest
      | none => cs

def skipAllSpace (cs : List Char) : List Char := skipSpace (cs.length + 1) cs

/-- The reader of one kind of thing: what it read, and what follows. -/
abbrev Step (α : Type) := List Char → Option (α × List Char)

def readItems (value : Step Toml) : Nat → Step (List Toml)
  | 0, _ => none
  | fuel + 1, cs =>
    match skipAllSpace cs with
    | ']' :: rest => some ([], rest)
    | cs => do
      let (item, rest) ← value cs
      match skipAllSpace rest with
      | ']' :: rest => return ([item], rest)
      | ',' :: rest =>
        let (items, rest) ← readItems value fuel rest
        return (item :: items, rest)
      | _ => none

def readAssignment (value : Step Toml) : Step Statement := fun cs => do
  let ((path, name), rest) ← readKey cs
  match rest with
  | '=' :: rest =>
    let (v, rest) ← value (skipBlanks rest)
    return (.assign path name v, rest)
  | _ => none

def readMembers (value : Step Toml) : Nat → Step (List Statement)
  | 0, _ => none
  | fuel + 1, cs => do
    let (member, rest) ← readAssignment value cs
    match skipBlanks rest with
    | '\x7d' :: rest => return ([member], rest)
    | ',' :: rest =>
      let (members, rest) ← readMembers value fuel rest
      return (member :: members, rest)
    | _ => none

def readInlineTable (value : Step Toml) : Step Toml := fun cs => do
  match skipBlanks cs with
  | '\x7d' :: rest => return (.table [], rest)
  | cs =>
    let (members, rest) ← readMembers value (cs.length + 1) cs
    return (← ofStatements? members, rest)

/-- A value, with at most the given number of arrays and tables around one another. -/
def readValue : Nat → Step Toml
  | _, '"' :: rest => (readString ('"' :: rest)).map fun (s, rest) =>
    (.string (String.ofList s), rest)
  | _, '\'' :: rest => (readString ('\'' :: rest)).map fun (s, rest) =>
    (.string (String.ofList s), rest)
  | depth + 1, '[' :: rest => do
    let (items, rest) ← readItems (readValue depth) (rest.length + 1) rest
    return (.array items, rest)
  | depth + 1, '\x7b' :: rest => readInlineTable (readValue depth) rest
  | _, 't' :: 'r' :: 'u' :: 'e' :: rest => some (.bool true, rest)
  | _, 'f' :: 'a' :: 'l' :: 's' :: 'e' :: rest => some (.bool false, rest)
  | _, cs => readNumber cs

def skipTrailing (cs : List Char) : Option (List Char) :=
  let cs := skipBlanks cs
  match (skipComment cs).getD cs with
  | [] => some []
  | rest => readBreak rest

def readStatement : Step Statement
  | '[' :: '[' :: rest => do
    let ((path, name), rest) ← readKey rest
    match rest with
    | ']' :: ']' :: rest => return (.tables path name, rest)
    | _ => none
  | '[' :: rest => do
    let ((path, name), rest) ← readKey rest
    match rest with
    | ']' :: rest => return (.table path name, rest)
    | _ => none
  | cs => readAssignment (readValue (depthLimit - 1)) cs

/-- The statements of a document. A comment may end the document without a line break. -/
def readStatements : Nat → List Char → Option (List Statement)
  | 0, _ => none
  | fuel + 1, cs =>
    match skipBlanks cs with
    | [] => some []
    | '#' :: rest =>
      match rest.dropWhile isPlain with
      | [] => some []
      | rest => (readBreak rest).bind (readStatements fuel)
    | c :: cs =>
      match readBreak (c :: cs) with
      | some rest => readStatements fuel rest
      | none => do
        let (statement, rest) ← readStatement (c :: cs)
        let rest ← skipTrailing rest
        return statement :: (← readStatements fuel rest)

/-- Reads a document; `none` if it is not well-formed. -/
def read? (text : String) : Option Toml := do
  let cs := Text.withoutMark text.toList
  ofStatements? (← readStatements (cs.length + 1) cs)

end TrafficWarden.Toml
