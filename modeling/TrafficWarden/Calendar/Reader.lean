import TrafficWarden.Calendar.Timestamp
import TrafficWarden.Text.Blank

/-!
# Reading dates and times

A number may follow any blanks and has at most the digits of its field; a year with a sign has any
number of digits. A separating blank stands for any run of blanks, the empty one included. Every
other separator is one character, directly after the number before it.
-/

namespace TrafficWarden.Calendar

/-- A number of one to `width` digits after any blanks, and what follows it. -/
def readField (width : Nat) (cs : List Char) : Option (Nat × List Char) :=
  let cs := Text.trimLeft cs
  let digits := (cs.take width).takeWhile Text.isDigit
  if digits.isEmpty then none else some (Text.digitsValue digits, cs.drop digits.length)

/-- A year of one to four digits, or a sign and any number of digits. -/
def readYear (cs : List Char) : Option (Int × List Char) :=
  match Text.trimLeft cs with
  | '-' :: rest => (signed rest).map fun (n, rest) => (-(n : Int), rest)
  | '+' :: rest => (signed rest).map fun (n, rest) => ((n : Int), rest)
  | rest => (readField 4 rest).map fun (n, rest) => ((n : Int), rest)
where
  signed (cs : List Char) : Option (Nat × List Char) :=
    let digits := cs.takeWhile Text.isDigit
    if digits.isEmpty then none else some (Text.digitsValue digits, cs.drop digits.length)

def readMark (mark : Char) : List Char → Option (List Char)
  | c :: rest => if c = mark then some rest else none
  | [] => none

def readDate (cs : List Char) : Option (Date × List Char) := do
  let (year, cs) ← readYear cs
  let cs ← readMark '-' cs
  let (month, cs) ← readField 2 cs
  let cs ← readMark '-' cs
  let (day, cs) ← readField 2 cs
  let date ← Date.of? year month day
  return (date, cs)

def timeOfDay? (hour minute second : Nat) : Option TimeOfDay :=
  if h : hour < 24 ∧ minute < 60 ∧ second < 61 then
    some ⟨⟨hour, h.1⟩, ⟨minute, h.2.1⟩, .ofNat second⟩
  else none

def readSeconds (cs : List Char) : Option TimeOfDay := do
  let (hour, cs) ← readField 2 cs
  let cs ← readMark ':' cs
  let (minute, cs) ← readField 2 cs
  let cs ← readMark ':' cs
  let (second, cs) ← readField 2 cs
  if cs.isEmpty then timeOfDay? hour minute second else none

def readMinutes (cs : List Char) : Option TimeOfDay := do
  let (hour, cs) ← readField 2 cs
  let cs ← readMark ':' cs
  let (minute, cs) ← readField 2 cs
  if cs.isEmpty then timeOfDay? hour minute 0 else none

/-- A time of day with or without seconds, and with blanks around it. -/
def TimeOfDay.read? (raw : String) : Option TimeOfDay :=
  let cs := Text.trim raw.toList
  readSeconds cs <|> readMinutes cs

/-- A date and a time of day with or without seconds, up to the end of the text. -/
def readTimestamp (cs : List Char) : Option Timestamp := do
  let (date, cs) ← readDate cs
  let cs := Text.trimLeft cs
  let time ← readSeconds cs <|> readMinutes cs
  return ⟨date, time⟩

def Timestamp.read? (raw : String) : Option Timestamp := readTimestamp (Text.trim raw.toList)

def Timestamp.complaint (raw : String) : String :=
  "'" ++ Text.trimmed raw ++ "' is not \"YYYY-MM-DD HH:MM[:SS]\""

end TrafficWarden.Calendar
