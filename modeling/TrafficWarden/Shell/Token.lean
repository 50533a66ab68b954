import TrafficWarden.Text.Ascii

/-!
# Tokens of a shell script

A word is made of pieces: text, the value of a parameter, or the output of a command. Quotes keep
blanks and marks within a word, and a backslash keeps the character after it.
-/

namespace TrafficWarden.Shell

inductive Piece where
  | text (s : String) (quoted : Bool)
  | parameter (name : String) (quoted : Bool)
  | output (source : String) (quoted : Bool)
deriving DecidableEq, Repr

abbrev Word := List Piece

/-- Why the rest of a script has no tokens. -/
inductive TokenFault where
  | quote
  | output
  | backquote
  | parameter
deriving DecidableEq, Repr

def TokenFault.message : TokenFault → String
  | .quote => "Unterminated quoted string"
  | .output => "end of file unexpected (expecting \")\")"
  | .backquote => "EOF in backquote substitution"
  | .parameter => "Missing '\x7d'"

/-- A token with its line. A line break is on the line that it begins, and the last token of a
script is its end or a fault. -/
inductive Token where
  | word (w : Word) (line : Nat)
  | mark (s : String) (line : Nat)
  | redirect (descriptor : Option Nat) (s : String) (line : Nat)
  | newline (line : Nat)
  | finish (line : Nat)
  | broken (fault : TokenFault) (line : Nat)
deriving DecidableEq, Repr

def isBlank (c : Char) : Bool := c == ' ' || c == '\t'

def isNameStart (c : Char) : Bool := Text.isLetter c || c == '_'

def isNameChar (c : Char) : Bool := Text.isAlphanumeric c || c == '_'

/-- Characters that end a word. -/
def endsWord (c : Char) : Bool :=
  isBlank c || ['\n', ';', '&', '|', '(', ')', '<', '>'].contains c

/-- Adds a character of text before some pieces. -/
def consChar (c : Char) (quoted : Bool) : Word → Word
  | .text s q :: rest =>
    if q = quoted then .text (String.ofList (c :: s.toList)) q :: rest
    else .text (String.singleton c) quoted :: .text s q :: rest
  | pieces => .text (String.singleton c) quoted :: pieces

/-- The text up to the closing mark of a substitution, which may hold further pairs of marks. -/
def readEnclosed (opening closing : Char) : Nat → List Char → Option (List Char × List Char)
  | _, [] => none
  | depth, c :: rest =>
    if c = closing then
      match depth with
      | 0 => some ([], rest)
      | depth + 1 => (readEnclosed opening closing depth rest).map fun (cs, rest) => (c :: cs, rest)
    else
      let depth := if c = opening then depth + 1 else depth
      (readEnclosed opening closing depth rest).map fun (cs, rest) => (c :: cs, rest)

/-- Parameters whose name is one mark. -/
def isSpecialParameter (c : Char) : Bool :=
  Text.isDigit c || ['?', '$', '#', '@', '*', '!', '-'].contains c

/-- The reader of a part of a word: what it read, and what follows. -/
abbrev PieceStep (α : Type) := List Char → Except TokenFault (α × List Char)

def orFault {α : Type} (fault : TokenFault) : Option α → Except TokenFault α
  | some a => .ok a
  | none => .error fault

/-- What a dollar sign before a text stands for; a dollar sign alone is text. -/
def readDollar (quoted : Bool) : PieceStep Piece
  | '(' :: rest => do
    let (source, rest) ← orFault .output (readEnclosed '(' ')' 0 rest)
    return (.output (String.ofList source) quoted, rest)
  | '\x7b' :: rest => do
    let (name, rest) ← orFault .parameter (readEnclosed '\x7b' '\x7d' 0 rest)
    return (.parameter (String.ofList name) quoted, rest)
  | c :: rest =>
    if isNameStart c then
      let name := (c :: rest).takeWhile isNameChar
      .ok (.parameter (String.ofList name) quoted, (c :: rest).drop name.length)
    else if isSpecialParameter c then .ok (.parameter (String.singleton c) quoted, rest)
    else .ok (.text "$" true, c :: rest)
  | [] => .ok (.text "$" true, [])

def readBackquoted (quoted : Bool) : PieceStep Piece := fun cs => do
  let (source, rest) ← orFault .backquote (readEnclosed '\x60' '\x60' 0 cs)
  return (.output (String.ofList source) quoted, rest)

/-- The rest of a text between double quotes. -/
def readDoubleQuoted : Nat → PieceStep Word
  | 0, _ => .error .quote
  | _, [] => .error .quote
  | fuel + 1, c :: rest =>
    if c = '"' then .ok ([.text "" true], rest)
    else if c = '\\' then
      match rest with
      | '\n' :: rest => readDoubleQuoted fuel rest
      | x :: rest => do
        let (w, rest) ← readDoubleQuoted fuel rest
        if x = '$' || x = '"' || x = '\\' || x = '\x60' then return (consChar x true w, rest)
        else return (consChar '\\' true (consChar x true w), rest)
      | [] => .error .quote
    else if c = '$' then do
      let (piece, rest) ← readDollar true rest
      let (w, rest) ← readDoubleQuoted fuel rest
      return (piece :: w, rest)
    else if c = '\x60' then do
      let (piece, rest) ← readBackquoted true rest
      let (w, rest) ← readDoubleQuoted fuel rest
      return (piece :: w, rest)
    else do
      let (w, rest) ← readDoubleQuoted fuel rest
      return (consChar c true w, rest)

/-- The text up to the next single quote. -/
def readSingleQuoted : PieceStep Piece := fun cs =>
  let inner := cs.takeWhile (· ≠ '\'')
  match cs.drop inner.length with
  | [] => .error .quote
  | _ :: rest => .ok (.text (String.ofList inner) true, rest)

/-- A word at the head of a text. -/
def readWord : Nat → PieceStep Word
  | 0, _ => .error .quote
  | _, [] => .ok ([], [])
  | fuel + 1, c :: rest =>
    if endsWord c then .ok ([], c :: rest)
    else if c = '\'' then do
      let (piece, rest) ← readSingleQuoted rest
      let (w, rest) ← readWord fuel rest
      return (piece :: w, rest)
    else if c = '"' then do
      let (inner, rest) ← readDoubleQuoted (rest.length + 1) rest
      let (w, rest) ← readWord fuel rest
      return (inner ++ w, rest)
    else if c = '\\' then
      match rest with
      | '\n' :: rest => readWord fuel rest
      | x :: rest => do
        let (w, rest) ← readWord fuel rest
        return (consChar x true w, rest)
      | [] => .ok ([.text "\\" true], [])
    else if c = '$' then do
      let (piece, rest) ← readDollar false rest
      let (w, rest) ← readWord fuel rest
      return (piece :: w, rest)
    else if c = '\x60' then do
      let (piece, rest) ← readBackquoted false rest
      let (w, rest) ← readWord fuel rest
      return (piece :: w, rest)
    else do
      let (w, rest) ← readWord fuel rest
      return (consChar c false w, rest)

/-- The longest operator at the head of a text. -/
def readMark : List Char → Option (String × List Char)
  | '&' :: '&' :: rest => some ("&&", rest)
  | '|' :: '|' :: rest => some ("||", rest)
  | ';' :: ';' :: rest => some (";;", rest)
  | ';' :: rest => some (";", rest)
  | '&' :: rest => some ("&", rest)
  | '|' :: rest => some ("|", rest)
  | '(' :: rest => some ("(", rest)
  | ')' :: rest => some (")", rest)
  | _ => none

/-- The operator of a redirection at the head of a text. -/
def readRedirect : List Char → Option (String × List Char)
  | '>' :: '>' :: rest => some (">>", rest)
  | '>' :: '&' :: rest => some (">&", rest)
  | '>' :: '|' :: rest => some (">", rest)
  | '>' :: rest => some (">", rest)
  | '<' :: '&' :: rest => some ("<&", rest)
  | '<' :: rest => some ("<", rest)
  | _ => none

/-- The line of the end of a text that begins on a line. An open parameter is noticed where it
begins. -/
def faultLine (fault : TokenFault) (line : Nat) (cs : List Char) : Nat :=
  if fault = .parameter then line else line + cs.count '\n'

/-- The tokens of a script from a line on. -/
def tokensFrom : Nat → Nat → List Char → List Token
  | 0, line, _ => [.finish line]
  | fuel + 1, line, cs =>
    match cs.dropWhile isBlank with
    | [] => [.finish line]
    | '\n' :: rest => .newline (line + 1) :: tokensFrom fuel (line + 1) rest
    | '\\' :: '\n' :: rest => tokensFrom fuel (line + 1) rest
    | '#' :: rest => tokensFrom fuel line (rest.dropWhile (· ≠ '\n'))
    | cs =>
      let digits := cs.takeWhile Text.isDigit
      match readMark cs, readRedirect (cs.drop digits.length) with
      | some (s, rest), _ => .mark s line :: tokensFrom fuel line rest
      | none, some (s, rest) =>
        let descriptor := if digits.isEmpty then none else (String.ofList digits).toNat?
        .redirect descriptor s line :: tokensFrom fuel line rest
      | none, none =>
        match readWord (cs.length + 1) cs with
        | .error fault => [.broken fault (faultLine fault line cs)]
        | .ok (w, rest) =>
          let breaks := (cs.take (cs.length - rest.length)).count '\n'
          .word w line :: tokensFrom fuel (line + breaks) rest

/-- The tokens of a script. -/
def tokens (source : String) : List Token := tokensFrom (source.length + 1) 1 source.toList

end TrafficWarden.Shell
