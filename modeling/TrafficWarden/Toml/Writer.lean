import TrafficWarden.Toml.Basic
import TrafficWarden.Text.Ascii

/-!
# Writing TOML strings

A string is written in the first form that needs no escapes: between quotation marks, between
apostrophes, between three of one or of the other. A tabulator between quotation marks is written
as an escape all the same. If every form needs escapes, quotation marks are used, three of them if
there are line breaks.
-/

namespace TrafficWarden.Toml

/-- The length of the longest run of a character, given the run before the text and the longest
one so far. -/
def longestRun (c : Char) : (run longest : Nat) → List Char → Nat
  | run, longest, [] => max run longest
  | run, longest, x :: rest =>
    if x = c then longestRun c (run + 1) longest rest
    else longestRun c 0 (max run longest) rest

/-- Control characters that no string may hold as they are. -/
def isControl (c : Char) : Bool :=
  c != '\t' && c != '\n' && (c.toNat < 0x20 || c.toNat == 0x7F)

inductive StringForm where
  | basic
  | literal
  | basicLines
  | literalLines
deriving DecidableEq, Repr

/-- The form in which a string is written. -/
def StringForm.of (cs : List Char) : StringForm :=
  let control := cs.any isControl
  let backslash := cs.contains '\\'
  let breaks := cs.contains '\n'
  let quotes := longestRun '"' 0 0 cs
  let apostrophes := longestRun '\'' 0 0 cs
  if !control && !backslash && quotes == 0 && !breaks then .basic
  else if !control && apostrophes == 0 && !breaks then .literal
  else if !control && !backslash && quotes ≤ 2 then .basicLines
  else if !control && apostrophes ≤ 2 then .literalLines
  else if breaks then .basicLines
  else .basic

def hexDigit (n : Nat) : Char :=
  if n < 10 then Char.ofNat ('0'.toNat + n) else Char.ofNat ('A'.toNat + n - 10)

/-- A control character by its number. -/
def numberedEscape (c : Char) : List Char :=
  let n := c.toNat
  ['\\', 'u', '0', '0', hexDigit (n / 16 % 16), hexDigit (n % 16)]

/-- A character other than a quotation mark in a basic string. -/
def escaped (lines : Bool) (c : Char) : List Char :=
  if c == Char.ofNat 8 then ['\\', 'b']
  else if c == '\t' then ['\\', 't']
  else if c == '\n' then (if lines then ['\n'] else ['\\', 'n'])
  else if c == Char.ofNat 12 then ['\\', 'f']
  else if c == '\r' then ['\\', 'r']
  else if c == '\\' then ['\\', '\\']
  else if isControl c then numberedEscape c
  else [c]

/-- The text within a basic string. At most `limit` quotation marks stand together without an
escape; `run` of them stand right before the text. -/
def basicBody (limit : Nat) (lines : Bool) : (run : Nat) → List Char → List Char
  | _, [] => []
  | run, c :: rest =>
    if c = '"' then
      if limit ≤ run then '\\' :: '"' :: basicBody limit lines 0 rest
      else '"' :: basicBody limit lines (run + 1) rest
    else escaped lines c ++ basicBody limit lines 0 rest

/-- The line break after the opening of a string of several lines, if there are several. -/
def opening (cs : List Char) : List Char := if cs.contains '\n' then ['\n'] else []

def writeChars (cs : List Char) : List Char :=
  match StringForm.of cs with
  | .basic => '"' :: basicBody 0 false 0 cs ++ ['"']
  | .literal => '\'' :: cs ++ ['\'']
  | .basicLines => ['"', '"', '"'] ++ opening cs ++ basicBody 2 true 0 cs ++ ['"', '"', '"']
  | .literalLines => ['\'', '\'', '\''] ++ opening cs ++ cs ++ ['\'', '\'', '\'']

def writeString (s : String) : String := String.ofList (writeChars s.toList)

end TrafficWarden.Toml
