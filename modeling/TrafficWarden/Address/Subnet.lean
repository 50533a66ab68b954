import TrafficWarden.Text.Numeral
import TrafficWarden.OrderedSet

/-!
# IPv4 addresses and subnets

A dotted quad has four parts of one to three digits, without leading zeros and at most 255. A
subnet keeps the host bits of its address. Subnets are ordered by address and then by the length of
the network part.
-/

namespace TrafficWarden

structure Ipv4 where
  a : UInt8
  b : UInt8
  c : UInt8
  d : UInt8
deriving DecidableEq, Repr

namespace Ipv4

def toNat (ip : Ipv4) : Nat :=
  ((ip.a.toNat * 256 + ip.b.toNat) * 256 + ip.c.toNat) * 256 + ip.d.toNat

theorem toNat_injective (m n : Ipv4) (h : m.toNat = n.toNat) : m = n := by
  cases m with | mk a b c d =>
  cases n with | mk a' b' c' d' =>
  have := a.toNat_lt; have := b.toNat_lt; have := c.toNat_lt; have := d.toNat_lt
  have := a'.toNat_lt; have := b'.toNat_lt; have := c'.toNat_lt; have := d'.toNat_lt
  simp only [toNat] at h
  congr 1 <;> apply UInt8.toNat_inj.mp <;> omega

def text (ip : Ipv4) : String :=
  toString ip.a.toNat ++ "." ++ toString ip.b.toNat ++ "." ++ toString ip.c.toNat ++ "." ++
    toString ip.d.toNat

/-- One part of a dotted quad. -/
def readPart (cs : List Char) : Option UInt8 :=
  if cs.isEmpty || 3 < cs.length || !cs.all Text.isDigit then none
  else if 1 < cs.length && cs.head? == some '0' then none
  else
    let n := Text.digitsValue cs
    if n ≤ 255 then some n.toUInt8 else none

def read? (cs : List Char) : Option Ipv4 :=
  match Text.splitAt '.' cs with
  | [a, b, c, d] => do return ⟨← readPart a, ← readPart b, ← readPart c, ← readPart d⟩
  | _ => none

end Ipv4

/-- An address with the length of its network part. -/
structure Subnet where
  address : Ipv4
  length : Nat
  length_le : length ≤ 32
deriving DecidableEq, Repr

namespace Subnet

def of? (address : Ipv4) (length : Int) : Option Subnet :=
  if h : 0 ≤ length ∧ length ≤ 32 then some ⟨address, length.toNat, by omega⟩ else none

def text (s : Subnet) : String := s.address.text ++ "/" ++ toString s.length

/-- The place of a subnet in the order by address and length. -/
def toNat (s : Subnet) : Nat := s.address.toNat * 64 + s.length

theorem toNat_injective (s t : Subnet) (h : s.toNat = t.toNat) : s = t := by
  cases s with | mk a l hl =>
  cases t with | mk b m hm =>
  simp only [toNat] at h
  have ha : a = b := Ipv4.toNat_injective a b (by omega)
  have hlm : l = m := by omega
  subst ha hlm
  rfl

instance : Ranked Subnet :=
  ⟨fun s => s.toNat, fun a b h => toNat_injective a b (by exact_mod_cast h)⟩

/-- The highest bits of an address, as many as the network part is long. -/
def networkOf (s : Subnet) (ip : Ipv4) : Nat := ip.toNat >>> (32 - s.length)

/-- Whether an address lies in the subnet: it agrees with it in the network part. -/
def contains (s : Subnet) (ip : Ipv4) : Bool := s.networkOf ip == s.networkOf s.address

end Subnet

end TrafficWarden
