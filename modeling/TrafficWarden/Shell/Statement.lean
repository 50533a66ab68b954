import TrafficWarden.Shell.Token

/-!
# Statements of a shell script

A script is read line by line: each line is one statement, of commands that follow one another,
depend on one another or contain others. A line that is no statement gives a complaint about the
first token that is out of place.
-/

namespace TrafficWarden.Shell

inductive RedirectKind where
  | read
  | write
  | append
  | copy
deriving DecidableEq, Repr

structure Redirect where
  descriptor : Nat
  kind : RedirectKind
  target : Word
deriving DecidableEq, Repr

inductive Statement where
  | nothing
  | simple (line : Nat) (assignments : List (String × Word)) (words : List Word)
      (redirects : List Redirect)
  | sequence (first second : Statement)
  | both (first second : Statement)
  | either (first second : Statement)
  | negated (s : Statement)
  | background (s : Statement)
  | pipe (first second : Statement)
  | group (body : Statement) (redirects : List Redirect)
  | subshell (body : Statement) (redirects : List Redirect)
  | choice (test yes no : Statement)
  | loop (whileTrue : Bool) (test body : Statement)
  | each (name : String) (words : List Word) (body : Statement)
deriving Inhabited, Repr

/-- What is wrong with a script, and in which line. -/
structure Complaint where
  line : Nat
  text : String
deriving DecidableEq, Repr

namespace Statement

/-- The name that a word is if it has no quotes. -/
def bare? : Token → Option String
  | .word [.text s false] _ => some s
  | _ => none

def isWord (s : String) (t : Token) : Bool := bare? t == some s

def isMark (s : String) : Token → Bool
  | .mark m _ => m == s
  | _ => false

/-- Words that end a list of statements. -/
def closers : List String := ["then", "else", "elif", "fi", "do", "done", "esac", "\x7d"]

/-- Words with a meaning of their own at the head of a command. -/
def keywords : List String := closers ++ ["!", "case", "for", "if", "in", "until", "while", "\x7b"]

def endsList (t : Token) : Bool :=
  isMark ")" t || isMark ";;" t || (bare? t).any closers.contains

def quotedName (s : String) : String := "\"" ++ s ++ "\""

/-- A token as it is named in a complaint. -/
def nameOf : Token → String
  | .word [.text s false] _ => if keywords.contains s then quotedName s else "word"
  | .word _ _ => "word"
  | .mark s _ => quotedName s
  | .redirect .. => "redirection"
  | .newline _ => "newline"
  | .finish _ => "end of file"
  | .broken _ _ => "end of file"

def lineOf : Token → Nat
  | .word _ line => line
  | .mark _ line => line
  | .redirect _ _ line => line
  | .newline line => line
  | .finish line => line
  | .broken _ line => line

/-- The assignment that a word is. -/
def assignment? : Word → Option (String × Word)
  | .text s false :: rest =>
    let name := s.toList.takeWhile isNameChar
    match name, s.toList.drop name.length with
    | c :: _, '=' :: value =>
      if isNameStart c then
        let head := if value.isEmpty then [] else [Piece.text (String.ofList value) false]
        some (String.ofList name, head ++ rest)
      else none
    | _, _ => none
  | _ => none

def kindOf? : String → Option (RedirectKind × Nat)
  | ">" => some (.write, 1)
  | ">>" => some (.append, 1)
  | ">&" => some (.copy, 1)
  | "<" => some (.read, 0)
  | "<&" => some (.copy, 0)
  | _ => none

/-- The reader of one kind of thing: what it read, and what follows. -/
abbrev Step (α : Type) := List Token → Except Complaint (α × List Token)

/-- The complaint about the first of some tokens, with what should be there. -/
def complaintOn (expected : Option String) : List Token → Complaint
  | [] => ⟨1, "end of file unexpected"⟩
  | .broken fault line :: _ => ⟨line, fault.message⟩
  | t :: _ =>
    let more := match expected with
      | some s => " (expecting " ++ quotedName s ++ ")"
      | none => ""
    ⟨lineOf t, nameOf t ++ " unexpected" ++ more⟩

def unexpected {α : Type} (ts : List Token) : Except Complaint α := .error (complaintOn none ts)

/-- Passes over a word that must be there. -/
def expect (s : String) : List Token → Except Complaint (List Token)
  | t :: rest => if isWord s t then .ok rest else .error (complaintOn (some s) (t :: rest))
  | [] => .error (complaintOn (some s) [])

def expectMark (s : String) : List Token → Except Complaint (List Token)
  | t :: rest => if isMark s t then .ok rest else .error (complaintOn (some s) (t :: rest))
  | [] => .error (complaintOn (some s) [])

/-- The redirections at the head of some tokens. -/
def readRedirects : Nat → Step (List Redirect)
  | 0, ts => unexpected ts
  | fuel + 1, .redirect descriptor s line :: .word target _ :: rest =>
    match kindOf? s with
    | some (kind, standard) => do
      let (rs, rest) ← readRedirects fuel rest
      return (⟨descriptor.getD standard, kind, target⟩ :: rs, rest)
    | none => unexpected (.redirect descriptor s line :: rest)
  | _ + 1, .redirect _ _ _ :: rest => unexpected rest
  | _ + 1, rest => .ok ([], rest)

/-- The words and redirections of a simple command. -/
def readSimple : Nat → Step (List Word × List Redirect)
  | 0, ts => unexpected ts
  | fuel + 1, .word w _ :: rest => do
    let ((words, rs), after) ← readSimple fuel rest
    return ((w :: words, rs), after)
  | fuel + 1, .redirect descriptor s line :: .word target _ :: rest =>
    match kindOf? s with
    | some (kind, standard) => do
      let ((words, rs), after) ← readSimple fuel rest
      return ((words, ⟨descriptor.getD standard, kind, target⟩ :: rs), after)
    | none => unexpected (.redirect descriptor s line :: rest)
  | _ + 1, .redirect _ _ _ :: rest => unexpected rest
  | _ + 1, .mark "(" line :: rest =>
    match rest with
    | .mark ")" _ :: _ => unexpected (.mark "(" line :: rest)
    | rest => .error (complaintOn (some ")") rest)
  | _ + 1, rest => .ok (([], []), rest)

/-- The assignments at the head of some words, and the other words. -/
def splitAssignments : List Word → List (String × Word) × List Word
  | [] => ([], [])
  | w :: rest =>
    match assignment? w with
    | some a =>
      let (assignments, words) := splitAssignments rest
      (a :: assignments, words)
    | none => ([], w :: rest)

def isNewline : Token → Bool
  | .newline _ => true
  | _ => false

def skipNewlines (ts : List Token) : List Token := ts.dropWhile isNewline

/-- Whether tokens are at the end of the script. -/
def atEnd : List Token → Bool
  | [] => true
  | .finish _ :: _ => true
  | _ => false

/-- The mark or line break after a statement, if there is one, and whether the statement is to run
in the background. -/
def readSeparator : List Token → Option (Bool × List Token)
  | .mark ";" _ :: rest => some (false, rest)
  | .mark "&" _ :: rest => some (true, rest)
  | .newline _ :: rest => some (false, rest)
  | _ => none

def behind (inBackground : Bool) (s : Statement) : Statement :=
  if inBackground then .background s else s

mutual

/-- Statements up to a word that ends them. There must be one at least. -/
def readList : Nat → Step Statement
  | 0, ts => unexpected ts
  | fuel + 1, ts => do
    let ts := skipNewlines ts
    if atEnd ts then return (.nothing, ts)
    else
      let (first, rest) ← readAndOr fuel ts
      readListRest fuel first rest

/-- The statements of a list after one of them. -/
def readListRest : Nat → Statement → Step Statement
  | 0, _, ts => unexpected ts
  | fuel + 1, first, ts =>
    match readSeparator ts with
    | none => .ok (first, ts)
    | some (inBackground, rest) => do
      let first := behind inBackground first
      let rest := skipNewlines rest
      if atEnd rest || rest.head?.any endsList then return (first, rest)
      else
        let (second, rest) ← readAndOr fuel rest
        let (more, rest) ← readListRest fuel second rest
        return (.sequence first more, rest)

/-- Pipelines joined by conditions. -/
def readAndOr : Nat → Step Statement
  | 0, ts => unexpected ts
  | fuel + 1, ts => do
    let (first, rest) ← readPipeline fuel ts
    readAndOrRest fuel first rest

def readAndOrRest : Nat → Statement → Step Statement
  | 0, _, ts => unexpected ts
  | fuel + 1, first, ts =>
    match ts with
    | .mark "&&" _ :: rest => do
      let (second, rest) ← readPipeline fuel (skipNewlines rest)
      readAndOrRest fuel (.both first second) rest
    | .mark "||" _ :: rest => do
      let (second, rest) ← readPipeline fuel (skipNewlines rest)
      readAndOrRest fuel (.either first second) rest
    | rest => .ok (first, rest)

def readPipeline : Nat → Step Statement
  | 0, ts => unexpected ts
  | fuel + 1, ts =>
    match ts with
    | t :: rest =>
      if isWord "!" t then do
        let (s, rest) ← readPipeline fuel rest
        return (.negated s, rest)
      else do
        let (first, rest) ← readCommand fuel (t :: rest)
        match rest with
        | .mark "|" _ :: rest =>
          let (second, rest) ← readPipeline fuel (skipNewlines rest)
          return (.pipe first second, rest)
        | rest => return (first, rest)
    | [] => unexpected []

/-- A command that contains others, with its redirections. -/
def readCompound : Nat → (name : String) → Step Statement
  | 0, _, ts => unexpected ts
  | fuel + 1, name, ts =>
    match name with
    | "if" => readChoice fuel ts
    | "for" => readEach fuel ts
    | "\x7b" => do
      let (body, rest) ← readList fuel ts
      return (body, ← expect "\x7d" rest)
    | name => do
      let (test, rest) ← readList fuel ts
      let (body, rest) ← readList fuel (← expect "do" rest)
      return (.loop (name = "while") test body, ← expect "done" rest)

def readCommand : Nat → Step Statement
  | 0, ts => unexpected ts
  | fuel + 1, ts =>
    match ts with
    | [] => unexpected []
    | t :: rest =>
      if isMark "(" t then do
        let (body, rest) ← readList fuel rest
        let (rs, rest) ← readRedirects (rest.length + 1) (← expectMark ")" rest)
        return (.subshell body rs, rest)
      else
        match (bare? t).filter ["if", "for", "while", "until", "\x7b"].contains with
        | some name => do
          let (s, rest) ← readCompound fuel name rest
          let (rs, rest) ← readRedirects (rest.length + 1) rest
          return (.group s rs, rest)
        | none =>
          if (bare? t).any keywords.contains then unexpected (t :: rest)
          else do
            let ((words, rs), after) ← readSimple (rest.length + 2) (t :: rest)
            if words.isEmpty && rs.isEmpty then unexpected (t :: rest)
            else
              let (assignments, words) := splitAssignments words
              return (.simple (lineOf t) assignments words rs, after)

/-- The rest of a choice after its first word. -/
def readChoice : Nat → Step Statement
  | 0, ts => unexpected ts
  | fuel + 1, ts => do
    let (test, rest) ← readList fuel ts
    let (yes, rest) ← readList fuel (← expect "then" rest)
    match rest with
    | t :: after =>
      if isWord "elif" t then
        let (no, rest) ← readChoice fuel after
        return (.choice test yes no, rest)
      else if isWord "else" t then
        let (no, rest) ← readList fuel after
        return (.choice test yes no, ← expect "fi" rest)
      else return (.choice test yes .nothing, ← expect "fi" rest)
    | [] => unexpected []

/-- The rest of a loop over words after its first word. -/
def readEach : Nat → Step Statement
  | 0, ts => unexpected ts
  | fuel + 1, ts => do
    match ts with
    | t :: rest =>
      match (bare? t).filter fun s => s.toList.all isNameChar && s.toList.head?.any isNameStart with
      | none => .error ⟨lineOf t, "Bad for loop variable"⟩
      | some name =>
        let rest ← match skipNewlines rest with
          | t :: rest =>
            if isWord "in" t then .ok rest else .error (complaintOn (some "do") (t :: rest))
          | [] => unexpected []
        let ((words, _), rest) ← readSimple (rest.length + 1) rest
        let rest ← match rest with
          | .mark ";" _ :: rest => .ok rest
          | .newline _ :: rest => .ok rest
          | rest => unexpected rest
        let (body, rest) ← readList fuel (← expect "do" (skipNewlines rest))
        return (.each name words body, ← expect "done" rest)
    | [] => unexpected []

end

/-- The statements of one line. -/
def readLine : Nat → Step Statement
  | 0, ts => unexpected ts
  | fuel + 1, ts => do
    let (first, rest) ← readAndOr fuel ts
    match rest with
    | .newline _ :: rest => return (first, rest)
    | rest =>
      if atEnd rest then return (first, rest)
      else
        match readSeparator rest with
        | none => unexpected rest
        | some (inBackground, rest) =>
          let first := behind inBackground first
          match rest with
          | .newline _ :: rest => return (first, rest)
          | rest =>
            if atEnd rest then return (first, rest)
            else
              let (second, rest) ← readLine fuel rest
              return (.sequence first second, rest)

/-- The lines of a script up to one that cannot be read, and the complaint about that. -/
def readLines : Nat → List Token → List Statement × Option Complaint
  | 0, ts => ([], some (complaintOn none ts))
  | fuel + 1, ts =>
    let ts := skipNewlines ts
    if atEnd ts then ([], none)
    else
      match readLine (6 * ts.length + 10) ts with
      | .error complaint => ([], some complaint)
      | .ok (s, rest) =>
        let (ss, complaint) := readLines fuel rest
        (s :: ss, complaint)

end Statement

/-- The lines of a script, and the complaint about the text after them. -/
def statements (source : String) : List Statement × Option Complaint :=
  let ts := tokens source
  Statement.readLines (ts.length + 1) ts

end TrafficWarden.Shell
