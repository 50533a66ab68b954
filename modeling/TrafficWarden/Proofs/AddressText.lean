import TrafficWarden.Address.Mac
import TrafficWarden.Address.Subnet
import Mathlib.Data.List.Basic
import Mathlib.Data.Nat.Bitwise

/-!
# Reading addresses back from their text

A MAC address, an IPv4 address, a subnet and a list of subnets between commas are each read back
from what is written for them. A subnet contains the addresses that agree with its own under the
mask of its length.
-/

namespace TrafficWarden

namespace Text

theorem splitAt_eq_splitOn (sep : Char) (cs : List Char) : splitAt sep cs = cs.splitOn sep := by
  induction cs with
  | nil => simp
  | cons c rest ih =>
    rw [List.splitOn_cons_eq_if_modifyHead, ← ih, splitAt]
    by_cases hc : c = sep
    · simp [hc]
    · obtain ⟨piece, pieces, hs⟩ := List.exists_cons_of_ne_nil (splitAt_ne_nil sep rest)
      simp [hc, hs]

/-- Pieces without the separator are read back from their joined text. -/
theorem splitAt_intercalate (sep : Char) {pieces : List (List Char)} (hne : pieces ≠ [])
    (h : ∀ piece ∈ pieces, sep ∉ piece) : splitAt sep ([sep].intercalate pieces) = pieces := by
  rw [splitAt_eq_splitOn]
  exact List.splitOn_intercalate sep h hne

theorem trim_eq_self {cs : List Char} (h : ∀ c ∈ cs, isBlank c = false) : trim cs = cs := by
  have hleft : ∀ l : List Char, (∀ c ∈ l, isBlank c = false) → l.dropWhile isBlank = l := by
    intro l hl
    cases l with
    | nil => rfl
    | cons c l => simp [hl c (by simp)]
  rw [trim, trimLeft, hleft cs h, trimRight, hleft cs.reverse (by simpa using h),
    List.reverse_reverse]

end Text

namespace MacAddress

/-- The digit pairs of an address. -/
def octets (m : MacAddress) : List (List Char) :=
  [octetChars m.o0, octetChars m.o1, octetChars m.o2, octetChars m.o3, octetChars m.o4,
    octetChars m.o5]

theorem chars_eq_intercalate (m : MacAddress) : m.chars = [':'].intercalate m.octets := by
  simp [chars, octets]

theorem mem_octets {m : MacAddress} {cs : List Char} (h : cs ∈ m.octets) :
    ∃ o, cs = octetChars o := by
  simp only [octets, List.mem_cons, List.not_mem_nil, or_false] at h
  rcases h with rfl | rfl | rfl | rfl | rfl | rfl <;> exact ⟨_, rfl⟩

theorem exists_hexDigit_of_mem_octetChars {o : UInt8} {c : Char} (h : c ∈ octetChars o) :
    ∃ d : Fin 16, c = hexDigit d := by
  have hlt := o.toNat_lt
  simp only [octetChars, List.mem_cons, List.not_mem_nil, or_false] at h
  rcases h with rfl | rfl
  · exact ⟨⟨o.toNat / 16, by omega⟩, rfl⟩
  · exact ⟨⟨o.toNat % 16, by omega⟩, rfl⟩

/-- The text of an address is made of digits and colons. -/
theorem cases_of_mem_chars {m : MacAddress} {c : Char} (h : c ∈ m.chars) :
    c = ':' ∨ ∃ d : Fin 16, c = hexDigit d := by
  simp only [chars, List.mem_append, List.mem_cons] at h
  rcases h with h | rfl | h | rfl | h | rfl | h | rfl | h | rfl | h
  all_goals first | exact .inl rfl | exact .inr (exists_hexDigit_of_mem_octetChars h)

theorem forall_mem_chars {P : Char → Prop} (hcolon : P ':') (hdigit : ∀ d : Fin 16, P (hexDigit d))
    {m : MacAddress} {c : Char} (h : c ∈ m.chars) : P c := by
  obtain rfl | ⟨d, rfl⟩ := cases_of_mem_chars h
  · exact hcolon
  · exact hdigit d

theorem isBlank_of_mem_chars {m : MacAddress} {c : Char} (h : c ∈ m.chars) :
    Text.isBlank c = false :=
  forall_mem_chars (P := fun c => Text.isBlank c = false) (by decide) (by decide) h

/-- The text of an address is in its normal form. -/
theorem normalize_chars (m : MacAddress) : normalize m.chars = m.chars := by
  have hsmall : ∀ c ∈ m.chars, Text.smallForm c = [c] := fun c hc =>
    forall_mem_chars (P := fun c => Text.smallForm c = [c]) (by decide) (by decide) hc
  have hcolon : ∀ c ∈ m.chars, colonForDash c = c := fun c hc =>
    forall_mem_chars (P := fun c => colonForDash c = c) (by decide) (by decide) hc
  rw [normalize, Text.smallForms, List.flatMap_congr hsmall, List.flatMap_singleton',
    List.map_congr_left hcolon]
  exact List.map_id _

theorem splitAt_chars (m : MacAddress) : Text.splitAt ':' m.chars = m.octets := by
  have hcolon : ∀ d : Fin 16, ':' ≠ hexDigit d := by decide
  rw [chars_eq_intercalate]
  refine Text.splitAt_intercalate ':' (by simp [octets]) fun cs hcs hmem => ?_
  obtain ⟨o, rfl⟩ := mem_octets hcs
  obtain ⟨d, hd⟩ := exists_hexDigit_of_mem_octetChars hmem
  exact hcolon d hd

theorem readChars_chars (m : MacAddress) : readChars m.chars = some m := by
  simp [readChars, readPairs, normalize_chars, splitAt_chars, octets, readOctet_octetChars]

/-- Reading the text of an address gives the address. -/
@[simp] theorem read?_text (m : MacAddress) : read? m.text = some m := by
  have htrim : Text.trim m.chars = m.chars := Text.trim_eq_self fun c hc => isBlank_of_mem_chars hc
  simp [read?, text, htrim, readChars_chars]

end MacAddress

namespace Ipv4

theorem toNat_lt (ip : Ipv4) : ip.toNat < 2 ^ 32 := by
  have := ip.a.toNat_lt; have := ip.b.toNat_lt; have := ip.c.toNat_lt; have := ip.d.toNat_lt
  simp only [toNat]
  omega

theorem readPart_toDigits (o : UInt8) : readPart (Nat.toDigits 10 o.toNat) = some o := by
  have hall : ∀ n : Fin 256, readPart (Nat.toDigits 10 n.val) = some (UInt8.ofNat n.val) := by
    decide +kernel
  simpa using hall ⟨o.toNat, o.toNat_lt⟩

/-- The decimal parts of an address. -/
def parts (ip : Ipv4) : List (List Char) :=
  [Nat.toDigits 10 ip.a.toNat, Nat.toDigits 10 ip.b.toNat, Nat.toDigits 10 ip.c.toNat,
    Nat.toDigits 10 ip.d.toNat]

theorem text_toList (ip : Ipv4) : ip.text.toList = ['.'].intercalate ip.parts := by
  simp [text, parts]

theorem isDigit_of_mem_parts {ip : Ipv4} {cs : List Char} {c : Char} (hcs : cs ∈ ip.parts)
    (hc : c ∈ cs) : c.isDigit = true := by
  simp only [parts, List.mem_cons, List.not_mem_nil, or_false] at hcs
  rcases hcs with rfl | rfl | rfl | rfl <;>
    exact Nat.isDigit_of_mem_toDigits (by decide) (by decide) hc

theorem mem_text {ip : Ipv4} {c : Char} (h : c ∈ ip.text.toList) : c.isDigit = true ∨ c = '.' := by
  have hparts : ∀ cs ∈ ip.parts, ∀ c ∈ cs, c.isDigit = true := fun _ hcs _ hc =>
    isDigit_of_mem_parts hcs hc
  rw [text_toList] at h
  simp only [parts, List.intercalate_cons_cons, List.intercalate_singleton, List.mem_append,
    List.mem_cons, List.not_mem_nil, or_false, forall_eq_or_imp, forall_eq] at h hparts
  obtain ⟨ha, hb, hc, hd⟩ := hparts
  rcases h with (h | h) | (h | h) | (h | h) | h
  exacts [.inl (ha c h), .inr h, .inl (hb c h), .inr h, .inl (hc c h), .inr h, .inl (hd c h)]

theorem read?_text (ip : Ipv4) : read? ip.text.toList = some ip := by
  have hsplit : Text.splitAt '.' ip.text.toList = ip.parts := by
    rw [text_toList]
    refine Text.splitAt_intercalate '.' (by simp [parts]) fun cs hcs hmem => ?_
    exact absurd (isDigit_of_mem_parts hcs hmem) (by decide)
  simp [read?, hsplit, parts, readPart_toDigits]

end Ipv4

namespace Subnet

/-- Reads an address and, after a slash, the length of its network part. -/
def read? (cs : List Char) : Option Subnet :=
  match Text.splitAt '/' cs with
  | [address, length] => do
    let address ← Ipv4.read? address
    let length ← Ipv4.readPart length
    of? address length.toNat
  | _ => none

/-- Reads subnets with commas between them. -/
def readList? (text : String) : Option (List Subnet) := (Text.splitAt ',' text.toList).mapM read?

theorem text_toList (s : Subnet) :
    s.text.toList = s.address.text.toList ++ '/' :: Nat.toDigits 10 s.length := by
  simp [text]

theorem read?_text (s : Subnet) : read? s.text.toList = some s := by
  have hlength : s.length.toUInt8.toNat = s.length := by
    have := s.length_le
    simp only [Nat.toUInt8_eq, UInt8.toNat_ofNat']
    omega
  have hslash : '/' ∉ s.address.text.toList := by
    intro h
    rcases Ipv4.mem_text h with h | h <;> exact absurd h (by decide)
  have hdigits : '/' ∉ Nat.toDigits 10 s.length := fun h =>
    absurd (Nat.isDigit_of_mem_toDigits (by decide) (by decide) h) (by decide)
  have hpart : Ipv4.readPart (Nat.toDigits 10 s.length) = some s.length.toUInt8 := by
    rw [← Ipv4.readPart_toDigits, hlength]
  have hsplit : Text.splitAt '/' s.text.toList =
      [s.address.text.toList, Nat.toDigits 10 s.length] := by
    rw [text_toList, Text.splitAt_eq_splitOn,
      List.splitOn_append_cons_self_of_not_mem hslash, List.splitOn_eq_singleton hdigits]
  have hof : of? s.address s.length = some s := by
    have hle := s.length_le
    rw [of?, dif_pos (by omega)]
    rfl
  simp [read?, hsplit, Ipv4.read?_text, hpart, hlength, hof]

/-- The text of a subnet is made of digits, points and a slash. -/
theorem cases_of_mem_text {s : Subnet} {c : Char} (h : c ∈ s.text.toList) :
    c.isDigit = true ∨ c = '.' ∨ c = '/' := by
  rw [text_toList, List.mem_append, List.mem_cons] at h
  rcases h with h | h | h
  · exact (Ipv4.mem_text h).imp_right .inl
  · exact .inr (.inr h)
  · exact .inl (Nat.isDigit_of_mem_toDigits (by decide) (by decide) h)

/-- Subnets are read back from their texts with commas between them. -/
theorem readList?_intercalate {subnets : List Subnet} (hne : subnets ≠ []) :
    readList? (",".intercalate (subnets.map text)) = some subnets := by
  have hsplit : Text.splitAt ',' (",".intercalate (subnets.map text)).toList =
      subnets.map (·.text.toList) := by
    rw [String.toList_intercalate, List.map_map]
    refine Text.splitAt_intercalate ',' (by simpa using hne) fun piece hp hcomma => ?_
    obtain ⟨s, -, rfl⟩ := List.mem_map.mp hp
    exact absurd (cases_of_mem_text hcomma) (by decide)
  have hread : ∀ l : List Subnet, (l.map (·.text.toList)).mapM read? = some l := by
    intro l
    induction l with
    | nil => rfl
    | cons s l ih => simp [read?_text, ih]
  rw [readList?, hsplit, hread]

/-- The bits of the network part. -/
def mask (s : Subnet) : Nat := (2 ^ s.length - 1) <<< (32 - s.length)

theorem testBit_mask (s : Subnet) (i : Nat) :
    s.mask.testBit i = (decide (32 - s.length ≤ i) && decide (i < 32)) := by
  have := s.length_le
  rw [mask, Nat.testBit_shiftLeft, Nat.testBit_two_pow_sub_one, Bool.eq_iff_iff]
  simp only [ge_iff_le, Bool.and_eq_true, decide_eq_true_eq]
  omega

/-- A subnet contains the addresses that agree with its own under the mask. -/
theorem contains_iff_mask (s : Subnet) (ip : Ipv4) :
    s.contains ip = true ↔ ip.toNat &&& s.mask = s.address.toNat &&& s.mask := by
  have hhigh : ∀ (a : Ipv4) (i : Nat), 32 ≤ i → a.toNat.testBit i = false := fun a i hi =>
    Nat.testBit_lt_two_pow (Nat.lt_of_lt_of_le a.toNat_lt (Nat.pow_le_pow_right (by decide) hi))
  rw [contains, networkOf, networkOf, beq_iff_eq]
  constructor
  · intro h
    refine Nat.eq_of_testBit_eq fun i => ?_
    rw [Nat.testBit_and, Nat.testBit_and, testBit_mask]
    by_cases hi : 32 - s.length ≤ i
    · have hbit := congrArg (Nat.testBit · (i - (32 - s.length))) h
      simp only [Nat.testBit_shiftRight, Nat.add_sub_cancel' hi] at hbit
      rw [hbit]
    · simp [hi]
  · intro h
    refine Nat.eq_of_testBit_eq fun i => ?_
    rw [Nat.testBit_shiftRight, Nat.testBit_shiftRight]
    by_cases hi : 32 - s.length + i < 32
    · have hbit := congrArg (Nat.testBit · (32 - s.length + i)) h
      simpa [Nat.testBit_and, testBit_mask, hi] using hbit
    · rw [hhigh _ _ (by omega), hhigh _ _ (by omega)]

end Subnet

end TrafficWarden
