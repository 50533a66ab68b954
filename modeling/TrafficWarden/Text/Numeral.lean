import TrafficWarden.Text.Ascii

/-!
# Decimal numerals of bounded integers

A numeral is an optional sign and at least one digit. The digits are read from the left, and the
first one that is no digit, or that takes the value out of its range, decides the fault.
-/

namespace TrafficWarden.Text

/-- The integers from `least` to `greatest`. -/
structure Bounds where
  least : Int
  greatest : Int
deriving DecidableEq, Repr

namespace Bounds

def int64 : Bounds := ⟨-0x8000000000000000, 0x7FFFFFFFFFFFFFFF⟩
def uint64 : Bounds := ⟨0, 0xFFFFFFFFFFFFFFFF⟩
def uint32 : Bounds := ⟨0, 0xFFFFFFFF⟩
def uint16 : Bounds := ⟨0, 0xFFFF⟩

def admits (b : Bounds) (n : Int) : Bool := b.least ≤ n && n ≤ b.greatest

end Bounds

inductive NumeralFault where
  | empty
  | invalidDigit
  | tooLarge
  | tooSmall
deriving DecidableEq, Repr

def NumeralFault.message : NumeralFault → String
  | .empty => "cannot parse integer from empty string"
  | .invalidDigit => "invalid digit found in string"
  | .tooLarge => "number too large to fit in target type"
  | .tooSmall => "number too small to fit in target type"

/-- Continues a numeral from the value read so far. -/
def readDigits (b : Bounds) (negative : Bool) : Int → List Char → Except NumeralFault Int
  | value, [] => .ok value
  | value, c :: rest =>
    match digitValue? c with
    | none => .error .invalidDigit
    | some d =>
      let next := if negative then value * 10 - d else value * 10 + d
      if next < b.least then .error .tooSmall
      else if b.greatest < next then .error .tooLarge
      else readDigits b negative next rest

/-- Reads a numeral within the bounds. A minus sign is admitted where the bounds admit negative
values. -/
def readInteger (b : Bounds) : List Char → Except NumeralFault Int
  | [] => .error .empty
  | '+' :: [] => .error .invalidDigit
  | '-' :: [] => .error .invalidDigit
  | '+' :: digits => readDigits b false 0 digits
  | '-' :: digits =>
    if b.least < 0 then readDigits b true 0 digits else .error .invalidDigit
  | digits => readDigits b false 0 digits

/-- The value of a run of decimal digits. -/
def digitsValue (cs : List Char) : Nat :=
  cs.foldl (fun value c => value * 10 + (c.toNat - '0'.toNat)) 0

/-- A natural number with at least `width` digits. -/
def padded (width n : Nat) : String :=
  let digits := toString n
  String.ofList (List.replicate (width - digits.length) '0') ++ digits

end TrafficWarden.Text
