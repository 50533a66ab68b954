/-!
# Bytes as text

Bytes that encode no character are replaced by the replacement character, one for each longest run
that begins an encoding.
-/

namespace TrafficWarden.Text

def replacement : Char := '\uFFFD'

/-- What may follow the first byte of an encoding: the range of the second byte, and the number of
bytes after it. -/
def leading? (b : UInt8) : Option (UInt8 × UInt8 × Nat) :=
  if 0xC2 ≤ b && b ≤ 0xDF then some (0x80, 0xBF, 0)
  else if b == 0xE0 then some (0xA0, 0xBF, 1)
  else if b == 0xED then some (0x80, 0x9F, 1)
  else if 0xE1 ≤ b && b ≤ 0xEF then some (0x80, 0xBF, 1)
  else if b == 0xF0 then some (0x90, 0xBF, 2)
  else if b == 0xF4 then some (0x80, 0x8F, 2)
  else if 0xF1 ≤ b && b ≤ 0xF3 then some (0x80, 0xBF, 2)
  else none

/-- The bytes of the encoding at the head of a text, up to the first one that does not belong to
it, and the number of bytes that are missing. -/
def continuation : Nat → List UInt8 → List UInt8 × Nat
  | 0, _ => ([], 0)
  | n + 1, [] => ([], n + 1)
  | n + 1, b :: rest =>
    if 0x80 ≤ b && b ≤ 0xBF then
      let (bs, missing) := continuation n rest
      (b :: bs, missing)
    else ([], n + 1)

def codePoint (first : UInt8) (bs : List UInt8) : Nat :=
  let head := first.toNat % (if bs.length = 1 then 32 else if bs.length = 2 then 16 else 8)
  bs.foldl (fun n b => n * 64 + b.toNat % 64) head

/-- The character at the head of some bytes, and the number of bytes that it takes after the first
one. -/
def headChar (b : UInt8) (rest : List UInt8) : Char × Nat :=
  if b < 0x80 then (Char.ofNat b.toNat, 0)
  else match leading? b, rest with
    | some (low, high, more), c :: rest =>
      if low ≤ c && c ≤ high then
        let (bs, missing) := continuation more rest
        if missing = 0 then (Char.ofNat (codePoint b (c :: bs)), 1 + bs.length)
        else (replacement, 1 + bs.length)
      else (replacement, 0)
    | _, _ => (replacement, 0)

def decodeChars : Nat → List UInt8 → List Char
  | 0, _ => []
  | _, [] => []
  | fuel + 1, b :: rest =>
    let (c, taken) := headChar b rest
    c :: decodeChars fuel (rest.drop taken)

def decode (bs : List UInt8) : String := String.ofList (decodeChars bs.length bs)

def encode (s : String) : List UInt8 := s.toUTF8.toList

end TrafficWarden.Text
