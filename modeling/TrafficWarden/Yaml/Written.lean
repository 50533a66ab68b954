import TrafficWarden.Yaml.Ambiguous
import TrafficWarden.Yaml.Cursor

/-!
# Writing YAML scalars

A text of several lines is written line by line, and any other one as it is, in both cases if
reading it gives the text back. Otherwise it is put between apostrophes, or, where that would not
do either, between quotation marks with escapes.
-/

namespace TrafficWarden.Yaml

inductive WrittenStyle where
  | plain
  | apostrophes
  | quotation
  | lines
deriving DecidableEq, Repr

def needsEscape (c : Char) : Bool :=
  !isPrintable c || c == '\t' || c == '\r' || c == '\u0085'

/-- Marks with a meaning of their own at the head of a scalar. -/
def isLeadingMark (c : Char) : Bool := "#,[]\x7b\x7d&*!|>'\"%@\x60".toList.contains c

/-- Whether a blank, a line break or the end is next. -/
def blankNext : List Char → Bool
  | [] => true
  | c :: _ => isBlankOrBreak c

/-- Whether the head of a text would be read as the head of something else. -/
def misleadsAtHead : List Char → Bool
  | [] => false
  | c :: rest =>
    isLeadingMark c || ((c == '?' || c == ':' || c == '-') && blankNext rest) ||
      ((c == '-' || c == '.') && rest.take 2 == [c, c])

/-- Whether what follows a character would be read as the end of a key or as a comment. -/
def misleadsAfter : Char → List Char → Bool
  | _, [] => false
  | before, c :: rest =>
    (c == ':' && blankNext rest) || (c == '#' && isBlankOrBreak before) || misleadsAfter c rest

def misleads : List Char → Bool
  | [] => false
  | c :: rest => misleadsAtHead (c :: rest) || misleadsAfter c rest

/-- Whether a character of one class stands right before a character of another one. -/
def adjacent (first second : Char → Bool) : List Char → Bool
  | [] => false
  | [_] => false
  | a :: b :: rest => (first a && second b) || adjacent first second (b :: rest)

def isSpace (c : Char) : Bool := c == ' '

def spaceBeforeBreak (cs : List Char) : Bool := adjacent isSpace isBreak cs

def spaceAfterBreak (cs : List Char) : Bool := adjacent isBreak isSpace cs

/-- Whether a text can stand as it is. -/
def plainAllowed (cs : List Char) : Bool :=
  !(cs.any fun c => needsEscape c || isBreak c) && cs.head? != some ' ' &&
    cs.getLast? != some ' ' && !misleads cs

def apostrophesAllowed (cs : List Char) : Bool :=
  !cs.any needsEscape && !spaceBeforeBreak cs && !spaceAfterBreak cs

def linesAllowed (cs : List Char) : Bool :=
  !cs.any needsEscape && !spaceBeforeBreak cs && cs.getLast? != some ' '

namespace WrittenStyle

def of (s : String) : WrittenStyle :=
  let cs := s.toList
  if cs.contains '\n' then
    if linesAllowed cs then .lines else .quotation
  else if !isAmbiguous s && plainAllowed cs then .plain
  else if apostrophesAllowed cs then .apostrophes
  else .quotation

end WrittenStyle

def hexDigits : Nat → Nat → List Char
  | 0, _ => []
  | width + 1, n =>
    let digit := n / Nat.pow 16 width % 16
    Char.ofNat (if digit < 10 then '0'.toNat + digit else 'A'.toNat + digit - 10) ::
      hexDigits width n

def numbered (n : Nat) : List Char :=
  if n ≤ 0xFF then 'x' :: hexDigits 2 n
  else if n ≤ 0xFFFF then 'u' :: hexDigits 4 n
  else 'U' :: hexDigits 8 n

def escapeName (c : Char) : List Char :=
  match c.toNat with
  | 0 => ['0']
  | 7 => ['a']
  | 8 => ['b']
  | 9 => ['t']
  | 10 => ['n']
  | 11 => ['v']
  | 12 => ['f']
  | 13 => ['r']
  | 27 => ['e']
  | 34 => ['"']
  | 92 => ['\\']
  | 0x85 => ['N']
  | 0x2028 => ['L']
  | 0x2029 => ['P']
  | n => numbered n

def quotedChar (c : Char) : List Char :=
  if needsEscape c || isBreak c || c == '"' || c == '\\' then '\\' :: escapeName c else [c]

def spaces (n : Nat) : List Char := List.replicate n ' '

/-- A text with an indentation before each line that is not empty. `broken` tells whether a line
begins with the text. -/
def indentLines (indent : Nat) (write : Char → List Char) : (broken : Bool) → List Char → List Char
  | _, [] => []
  | broken, c :: rest =>
    if isBreak c then c :: indentLines indent write true rest
    else (if broken then spaces indent else []) ++ write c ++ indentLines indent write false rest

def endsWithBreak (cs : List Char) : Bool := cs.getLast?.any isBreak

/-- A text between apostrophes, where an apostrophe is written twice. -/
def apostropheText (indent : Nat) (cs : List Char) : List Char :=
  let body := indentLines indent (fun c => if c == '\'' then ['\'', '\''] else [c]) false cs
  '\'' :: body ++ (if endsWithBreak cs then spaces indent else []) ++ ['\'']

/-- What the head of a text of several lines says: the indentation, if the text does not show it,
and whether the text ends without a line break, with one, or with more. -/
def lineHints (cs : List Char) : List Char :=
  let lead := if (cs.head?.any fun c => c == ' ' || isBreak c) then ['2'] else []
  let chomp :=
    if !endsWithBreak cs then ['-']
    else if endsWithBreak cs.dropLast || cs.length = 1 then ['+']
    else []
  '|' :: lead ++ chomp

/-- A scalar and the end of its last line, with the indentation of its further lines. -/
def scalarLine (indent : Nat) (s : String) : String :=
  let cs := s.toList
  String.ofList (match WrittenStyle.of s with
    | .plain => cs ++ ['\n']
    | .apostrophes => apostropheText indent cs ++ ['\n']
    | .quotation => '"' :: cs.flatMap quotedChar ++ ['"', '\n']
    | .lines =>
      lineHints cs ++ '\n' :: indentLines indent (fun c => [c]) true cs ++
        (if endsWithBreak cs then [] else ['\n']))

/-- A scalar as the name of a member, on one line. -/
def keyText (s : String) : String :=
  let cs := s.toList
  if cs.any isBreak then String.ofList ('"' :: cs.flatMap quotedChar ++ ['"'])
  else String.ofList ((scalarLine 0 s).toList.dropLast)

end TrafficWarden.Yaml
