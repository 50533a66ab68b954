import TrafficWarden.Toml.Basic
import TrafficWarden.Text.Decimal
import TrafficWarden.Text.Numeral
import TrafficWarden.Calendar.Date

/-!
# Numbers and dates of TOML

Digits may be set apart by single underscores. Integers have 64 bits and may be hexadecimal, octal
or binary. A number with a fraction or an exponent is floating-point; it must not be beyond the
greatest one.
-/

namespace TrafficWarden.Toml

/-- The rest of a run of digits with single underscores between them. -/
def readDigitTail (ok : Char → Bool) : List Char → Option (List Char × List Char)
  | [] => some ([], [])
  | ['_'] => none
  | '_' :: c :: rest =>
    if ok c then (readDigitTail ok rest).map fun (ds, rest) => (c :: ds, rest) else none
  | c :: rest =>
    if ok c then (readDigitTail ok rest).map fun (ds, rest) => (c :: ds, rest)
    else some ([], c :: rest)

/-- A run of at least one digit. -/
def readDigitRun (ok : Char → Bool) : List Char → Option (List Char × List Char)
  | c :: rest =>
    if ok c then (readDigitTail ok rest).map fun (ds, rest) => (c :: ds, rest) else none
  | [] => none

def isOctalDigit (c : Char) : Bool := '0' ≤ c && c ≤ '7'

def isBinaryDigit (c : Char) : Bool := c == '0' || c == '1'

def radixValue (radix : Nat) (digits : List Char) : Nat :=
  digits.foldl (fun value c => value * radix + (Text.hexValue? c).getD 0) 0

/-- An integer that fits in 64 bits. -/
def bounded? (n : Int) : Option Int := if Text.Bounds.int64.admits n then some n else none

/-- A decimal integer without sign; a leading zero stands alone. -/
def readDecimal : List Char → Option (List Char × List Char)
  | '0' :: rest => some (['0'], rest)
  | cs => readDigitRun Text.isDigit cs

def readSign : List Char → List Char × List Char
  | '+' :: rest => (['+'], rest)
  | '-' :: rest => (['-'], rest)
  | rest => ([], rest)

def readRadix (radix : Nat) (ok : Char → Bool) (cs : List Char) : Option (Toml × List Char) := do
  let (digits, rest) ← readDigitRun ok cs
  return (.integer (← bounded? (radixValue radix digits)), rest)

def readInteger : List Char → Option (Toml × List Char)
  | '0' :: 'x' :: rest => readRadix 16 Text.isHexDigit rest
  | '0' :: 'o' :: rest => readRadix 8 isOctalDigit rest
  | '0' :: 'b' :: rest => readRadix 2 isBinaryDigit rest
  | cs => do
    let (sign, rest) := readSign cs
    let (digits, rest) ← readDecimal rest
    let magnitude : Int := Text.digitsValue digits
    return (.integer (← bounded? (if sign = ['-'] then -magnitude else magnitude)), rest)

/-- A fraction: a point and digits. -/
def readFraction : List Char → Option (List Char × List Char)
  | '.' :: rest => readDigitRun Text.isDigit rest
  | _ => none

/-- An exponent: its letter, a sign or none, and digits. -/
def readExponent : List Char → Option ((List Char × List Char) × List Char)
  | c :: rest =>
    if c == 'e' || c == 'E' then do
      let (sign, rest) := readSign rest
      let (digits, rest) ← readDigitRun Text.isDigit rest
      return ((sign, digits), rest)
    else none
  | [] => none

def exponentValue (sign digits : List Char) : Int :=
  if sign = ['-'] then -(Text.digitsValue digits : Int) else Text.digitsValue digits

/-- A floating-point number from its parts, unless it is positive and too great. -/
def float? (sign whole fraction : List Char) (exponent : List Char × List Char) : Option Toml :=
  let magnitude : Text.Decimal :=
    ⟨Text.digitsValue (whole ++ fraction), exponentValue exponent.1 exponent.2 - fraction.length⟩
  if sign ≠ ['-'] && !magnitude.isFinite then none
  else
    some (.float (String.ofList (sign ++ whole ++ '.' :: fraction ++ 'e' :: exponent.1 ++
      exponent.2)))

def readFloat (cs : List Char) : Option (Toml × List Char) := do
  let (sign, rest) := readSign cs
  match rest with
  | 'i' :: 'n' :: 'f' :: rest => return (.float (String.ofList (sign ++ ['i', 'n', 'f'])), rest)
  | 'n' :: 'a' :: 'n' :: rest => return (.float (String.ofList (sign ++ ['n', 'a', 'n'])), rest)
  | _ =>
    let (whole, rest) ← readDecimal rest
    match rest with
    | '.' :: _ =>
      let (fraction, rest) ← readFraction rest
      match rest with
      | 'e' :: _ | 'E' :: _ =>
        let (exponent, rest) ← readExponent rest
        return (← float? sign whole fraction exponent, rest)
      | _ => return (← float? sign whole fraction ([], []), rest)
    | _ =>
      let (exponent, rest) ← readExponent rest
      return (← float? sign whole [] exponent, rest)

/-- A number of exactly `width` digits. -/
def readFixed (width : Nat) (cs : List Char) : Option (Nat × List Char) :=
  let digits := cs.take width
  if digits.length = width && digits.all Text.isDigit then
    some (Text.digitsValue digits, cs.drop width)
  else none

def readMark (mark : Char) : List Char → Option (List Char)
  | c :: rest => if c = mark then some rest else none
  | [] => none

def readFullDate (cs : List Char) : Option (List Char) := do
  let (year, cs) ← readFixed 4 cs
  let cs ← readMark '-' cs
  let (month, cs) ← readFixed 2 cs
  let cs ← readMark '-' cs
  let (day, cs) ← readFixed 2 cs
  if Calendar.isDate year month day then some cs else none

def readPartialTime (cs : List Char) : Option (List Char) := do
  let (hour, cs) ← readFixed 2 cs
  let cs ← readMark ':' cs
  let (minute, cs) ← readFixed 2 cs
  let cs ← readMark ':' cs
  let (second, cs) ← readFixed 2 cs
  if 23 < hour || 59 < minute || 60 < second then none
  else match cs with
    | '.' :: rest =>
      let digits := rest.takeWhile Text.isDigit
      if digits.isEmpty then none else some (rest.drop digits.length)
    | cs => some cs

/-- The offset from universal time after a time, if there is one. -/
def readOffset : List Char → Option (List Char)
  | 'Z' :: rest => some rest
  | 'z' :: rest => some rest
  | c :: rest =>
    if c == '+' || c == '-' then do
      let (hour, rest) ← readFixed 2 rest
      let rest ← readMark ':' rest
      let (minute, rest) ← readFixed 2 rest
      if 23 < hour || 59 < minute then none else some rest
    else some (c :: rest)
  | [] => some []

def isTimeMark (c : Char) : Bool := c == 'T' || c == 't' || c == ' '

/-- What follows a date, a time of day, or both. -/
def skipDatetime (cs : List Char) : Option (List Char) :=
  match readFullDate cs with
  | some (c :: rest) =>
    if isTimeMark c then
      match readPartialTime rest with
      | some after => readOffset after
      | none => if c == ' ' then some (c :: rest) else none
    else some (c :: rest)
  | some [] => some []
  | none => readPartialTime cs

def readDatetime (cs : List Char) : Option (Toml × List Char) := do
  let rest ← skipDatetime cs
  return (.datetime (String.ofList (cs.take (cs.length - rest.length))), rest)

/-- A date, a floating-point number or an integer. -/
def readNumber (cs : List Char) : Option (Toml × List Char) :=
  readDatetime cs <|> readFloat cs <|> readInteger cs

end TrafficWarden.Toml
