/-!
# ASCII letters and digits

Case folding and character classes that concern ASCII alone; every other character is left as it is.
-/

namespace TrafficWarden.Text

def isDigit (c : Char) : Bool := '0' ≤ c && c ≤ '9'

def isHexDigit (c : Char) : Bool :=
  isDigit c || ('a' ≤ c && c ≤ 'f') || ('A' ≤ c && c ≤ 'F')

def isLowerLetter (c : Char) : Bool := 'a' ≤ c && c ≤ 'z'

def isUpperLetter (c : Char) : Bool := 'A' ≤ c && c ≤ 'Z'

def isLetter (c : Char) : Bool := isLowerLetter c || isUpperLetter c

def isAlphanumeric (c : Char) : Bool := isLetter c || isDigit c

/-- The small form of a capital ASCII letter. -/
def lowerChar (c : Char) : Char :=
  if isUpperLetter c then Char.ofNat (c.toNat + 32) else c

def lower (cs : List Char) : List Char := cs.map lowerChar

def lowered (s : String) : String := String.ofList (lower s.toList)

/-- The value of a decimal digit. -/
def digitValue? (c : Char) : Option Nat :=
  if isDigit c then some (c.toNat - '0'.toNat) else none

/-- The value of a hexadecimal digit in either case. -/
def hexValue? (c : Char) : Option Nat :=
  if isDigit c then some (c.toNat - '0'.toNat)
  else if 'a' ≤ c && c ≤ 'f' then some (c.toNat - 'a'.toNat + 10)
  else if 'A' ≤ c && c ≤ 'F' then some (c.toNat - 'A'.toNat + 10)
  else none

/-- The pieces of a text between the occurrences of a separator; there is always one more piece
than there are separators. -/
def splitAt (sep : Char) : List Char → List (List Char)
  | [] => [[]]
  | c :: rest =>
    if c = sep then [] :: splitAt sep rest
    else match splitAt sep rest with
      | [] => [[c]]
      | piece :: pieces => (c :: piece) :: pieces

@[simp] theorem splitAt_nil (sep : Char) : splitAt sep [] = [[]] := rfl

theorem splitAt_ne_nil (sep : Char) (cs : List Char) : splitAt sep cs ≠ [] := by
  cases cs with
  | nil => simp
  | cons c rest =>
    unfold splitAt
    split
    · simp
    · split <;> simp

end TrafficWarden.Text
