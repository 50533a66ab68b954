import TrafficWarden.Text.Blank
import TrafficWarden.Text.SmallForm
import TrafficWarden.OrderedSet

/-!
# MAC addresses

An address is read from six pairs of hexadecimal digits, with colons or dashes between them, in
either case and with blanks around it. It is written in small letters with colons.
-/

namespace TrafficWarden

/-- A MAC address, as its six octets. -/
structure MacAddress where
  o0 : UInt8
  o1 : UInt8
  o2 : UInt8
  o3 : UInt8
  o4 : UInt8
  o5 : UInt8
deriving DecidableEq, Repr

namespace MacAddress

/-- The address as a number of 48 bits. -/
def toNat (m : MacAddress) : Nat :=
  ((((m.o0.toNat * 256 + m.o1.toNat) * 256 + m.o2.toNat) * 256 + m.o3.toNat) * 256 +
    m.o4.toNat) * 256 + m.o5.toNat

theorem toNat_injective (m n : MacAddress) (h : m.toNat = n.toNat) : m = n := by
  cases m with | mk a b c d e f =>
  cases n with | mk a' b' c' d' e' f' =>
  have := a.toNat_lt; have := b.toNat_lt; have := c.toNat_lt
  have := d.toNat_lt; have := e.toNat_lt; have := f.toNat_lt
  have := a'.toNat_lt; have := b'.toNat_lt; have := c'.toNat_lt
  have := d'.toNat_lt; have := e'.toNat_lt; have := f'.toNat_lt
  simp only [toNat] at h
  congr 1 <;> apply UInt8.toNat_inj.mp <;> omega

instance : Ranked MacAddress :=
  ⟨fun m => m.toNat, fun a b h => toNat_injective a b (by exact_mod_cast h)⟩

def hexDigit (n : Nat) : Char :=
  if n < 10 then Char.ofNat ('0'.toNat + n) else Char.ofNat ('a'.toNat + (n - 10))

/-- An octet as two hexadecimal digits. -/
def octetChars (o : UInt8) : List Char := [hexDigit (o.toNat / 16), hexDigit (o.toNat % 16)]

def chars (m : MacAddress) : List Char :=
  octetChars m.o0 ++ ':' :: (octetChars m.o1 ++ ':' :: (octetChars m.o2 ++ ':' ::
    (octetChars m.o3 ++ ':' :: (octetChars m.o4 ++ ':' :: octetChars m.o5))))

def text (m : MacAddress) : String := String.ofList m.chars

def readOctet : List Char → Option UInt8
  | [a, b] => do
    let a ← Text.hexValue? a
    let b ← Text.hexValue? b
    return (a * 16 + b).toUInt8
  | _ => none

def colonForDash (c : Char) : Char := if c = '-' then ':' else c

/-- A text in small letters, with colons for its dashes. -/
def normalize (cs : List Char) : List Char := (Text.smallForms cs).map colonForDash

/-- Reads six pairs of digits with colons between them. -/
def readPairs (cs : List Char) : Option MacAddress :=
  match Text.splitAt ':' cs with
  | [a, b, c, d, e, f] => do
    return ⟨← readOctet a, ← readOctet b, ← readOctet c, ← readOctet d, ← readOctet e,
      ← readOctet f⟩
  | _ => none

def readChars (cs : List Char) : Option MacAddress := readPairs (normalize cs)

def read? (raw : String) : Option MacAddress := readChars (Text.trim raw.toList)

/-- What is said of a text that is no MAC address. -/
def complaint (raw : String) : String :=
  "invalid MAC address '" ++ raw ++ "': expected six hex octets"

theorem readOctet_octetChars (o : UInt8) : readOctet (octetChars o) = some o := by
  have h : ∀ n : Fin 256,
      readOctet (octetChars (UInt8.ofNat n.val)) = some (UInt8.ofNat n.val) := by
    decide +kernel
  have := h ⟨o.toNat, o.toNat_lt⟩
  simpa using this

end MacAddress

end TrafficWarden
