import TrafficWarden.Text.Decimal
import TrafficWarden.Yaml.Scalar

/-!
# Texts that read as something else

A plain scalar with such a text would be read as nothing, as a truth value or as a number, or is
a row of digits that begins with zero. A text of this kind is written with quotes.
-/

namespace TrafficWarden.Yaml

/-- Integers of 128 bits, with or without a sign. -/
def isIntegerText (cs : List Char) : Bool :=
  (integerText? cs).any fun n =>
    -0x80000000000000000000000000000000 ≤ n && n ≤ 0xFFFFFFFFFFFFFFFFFFFFFFFFFFFFFFFF

/-- The power of ten after a mantissa. -/
def exponent? : List Char → Option Int
  | [] => some 0
  | c :: rest =>
    if c != 'e' && c != 'E' then none
    else
      let (negative, digits) := match rest with
        | '-' :: digits => (true, digits)
        | '+' :: digits => (false, digits)
        | digits => (false, digits)
      (digits? 10 digits).map fun n => if negative then -n else n

/-- A decimal fraction without sign. It has a digit before or after the point. -/
def decimal? (cs : List Char) : Option Text.Decimal :=
  let whole := cs.takeWhile Text.isDigit
  let rest := cs.dropWhile Text.isDigit
  let (fraction, rest) := match rest with
    | '.' :: rest => (rest.takeWhile Text.isDigit, rest.dropWhile Text.isDigit)
    | rest => ([], rest)
  if whole.isEmpty && fraction.isEmpty then none
  else (exponent? rest).map fun e =>
    ⟨Text.digitsValue (whole ++ fraction), e - fraction.length⟩

/-- The names of what is a number of no size. -/
def specialNumbers : List String :=
  [".inf", ".Inf", ".INF", "+.inf", "+.Inf", "+.INF", "-.inf", "-.Inf", "-.INF",
    ".nan", ".NaN", ".NAN"]

def withoutSign : List Char → List Char
  | '+' :: rest => rest
  | '-' :: rest => rest
  | rest => rest

def isFloatText (cs : List Char) : Bool :=
  specialNumbers.contains (String.ofList cs) ||
    (decimal? (withoutSign cs)).any Text.Decimal.isFinite

/-- Digits after a zero, with or without a sign. -/
def isZeroLed (cs : List Char) : Bool :=
  match withoutSign cs with
  | '0' :: c :: rest => (c :: rest).all Text.isDigit
  | _ => false

def isAmbiguous (s : String) : Bool :=
  let cs := s.toList
  s = "" || isNullText s || (boolText? s).isSome || isIntegerText cs || isFloatText cs ||
    isZeroLed cs

end TrafficWarden.Yaml
