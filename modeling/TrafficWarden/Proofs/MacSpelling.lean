import Mathlib.Data.List.TakeWhile
import TrafficWarden.Records
import TrafficWarden.Proofs.AddressSpelling
import TrafficWarden.Proofs.JsonStrings

/-!
# Spellings of MAC addresses

A text spells six octets if it has two hexadecimal digits for each, in either case, with a colon or
a dash between one octet and the next, and blanks at most around all of them. These are the texts
that are read as addresses, and the small letters of other scripts do not make more of them.
-/

namespace TrafficWarden

namespace Text

/-- Trimming takes off a blank text before and after one without blanks. -/
theorem trim_surrounded {before body after : List Char} (hbefore : ∀ c ∈ before, isBlank c = true)
    (hbody : ∀ c ∈ body, isBlank c = false) (hafter : ∀ c ∈ after, isBlank c = true) :
    trim (before ++ (body ++ after)) = body := by
  have hleft : trimLeft (before ++ (body ++ after)) = trimLeft (body ++ after) :=
    List.dropWhile_append_of_pos hbefore
  cases body with
  | nil =>
    have hnone : trimLeft after = [] := List.dropWhile_eq_nil_iff.mpr hafter
    rw [trim, hleft, List.nil_append, hnone]
    rfl
  | cons c rest =>
    have hstays : trimLeft (c :: rest ++ after) = c :: rest ++ after := by
      simp [trimLeft, hbody c (by simp)]
    have hright : trimRight (c :: rest ++ after) = c :: rest := by
      rw [trimRight, List.reverse_append,
        List.dropWhile_append_of_pos fun d hd => hafter d (List.mem_reverse.mp hd)]
      have hself : trim (c :: rest) = c :: rest := trim_eq_self hbody
      rwa [trim, show trimLeft (c :: rest) = c :: rest by simp [trimLeft, hbody c (by simp)]]
        at hself
    rw [trim, hleft, hstays, hright]

/-- What trimming takes off is blank. -/
theorem exists_trim (cs : List Char) : ∃ before after, cs = before ++ (trim cs ++ after) ∧
    (∀ c ∈ before, isBlank c = true) ∧ ∀ c ∈ after, isBlank c = true := by
  refine ⟨cs.takeWhile isBlank, ((trimLeft cs).reverse.takeWhile isBlank).reverse, ?_, ?_, ?_⟩
  · rw [trim, trimRight, ← List.reverse_append, List.takeWhile_append_dropWhile,
      List.reverse_reverse, trimLeft, List.takeWhile_append_dropWhile]
  · exact fun c hc => List.mem_takeWhile_imp hc
  · exact fun c hc => List.mem_takeWhile_imp (List.mem_reverse.mp hc)

end Text

namespace MacAddress

open Text

/-- A hexadecimal digit of either case, and its value. -/
def IsDigitOf (c : Char) (v : Nat) : Prop :=
  v < 16 ∧ (c = v.digitChar ∨ c = v.digitChar.toUpper)

/-- Two hexadecimal digits denote an octet. -/
def DenotesOctet (a b : Char) (o : UInt8) : Prop :=
  ∃ x y, IsDigitOf a x ∧ IsDigitOf b y ∧ o.toNat = x * 16 + y

/-- Pairs of digits denote octets, with a colon or a dash between one pair and the next. -/
inductive Denotes : List Char → List UInt8 → Prop
  | last {a b o} (octet : DenotesOctet a b o) : Denotes [a, b] [o]
  | cons {a b o sep cs os} (octet : DenotesOctet a b o) (separator : sep = ':' ∨ sep = '-')
      (others : Denotes cs os) : Denotes (a :: b :: sep :: cs) (o :: os)

/-- A text denotes octets, with blanks around it or none. -/
def Spells (raw : String) (os : List UInt8) : Prop :=
  ∃ before body after, raw.toList = before ++ (body ++ after) ∧
    (∀ c ∈ before, isBlank c = true) ∧ (∀ c ∈ after, isBlank c = true) ∧ Denotes body os

/-- Six pairs of digits or small letters, with colons between them. -/
def IsCanonical (text : String) : Prop :=
  ∃ pairs : List (List Char), text.toList = [':'].intercalate pairs ∧ pairs.length = 6 ∧
    ∀ pair ∈ pairs, pair.length = 2 ∧ ∀ c ∈ pair, c ∈ "0123456789abcdef".toList

/-- The octets of an address, in order. -/
def bytes (m : MacAddress) : List UInt8 := [m.o0, m.o1, m.o2, m.o3, m.o4, m.o5]

theorem octets_eq (m : MacAddress) : m.octets = m.bytes.map octetChars := rfl

theorem exists_bytes {os : List UInt8} (h : os.length = 6) : ∃ m : MacAddress, m.bytes = os := by
  match os, h with
  | [a, b, c, d, e, f], _ => exact ⟨⟨a, b, c, d, e, f⟩, rfl⟩

theorem bytes_injective {m m' : MacAddress} (h : m.bytes = m'.bytes) : m = m' := by
  cases m
  cases m'
  simpa [bytes] using h

section characters

theorem isDigitOf_iff {c : Char} {v : Nat} : IsDigitOf c v ↔ hexValue? c = some v := by
  rw [hexValue?_eq_some_iff, IsDigitOf]
  refine and_congr_right fun hv => ?_
  -- in ASCII the characters can be tried, and beyond it neither side holds
  by_cases hc : c.toNat < 128
  · have hall := forall_ascii (P := fun c => ∀ v : Fin 16,
      (c = Nat.digitChar v.val ∨ c = (Nat.digitChar v.val).toUpper) ↔ lowerChar c = hexDigit v.val)
      (by decide +kernel) hc
    exact hall ⟨v, hv⟩
  · have hdigit : ∀ v : Fin 16, (Nat.digitChar v.val).toNat < 128 ∧
        (Nat.digitChar v.val).toUpper.toNat < 128 ∧ (hexDigit v.val).toNat < 128 := by decide
    obtain ⟨hsmall, hcapital, hhex⟩ := hdigit ⟨v, hv⟩
    rw [lowerChar_of_toNat_ge (Nat.le_of_not_lt hc)]
    refine iff_of_false ?_ ?_
    · rintro (rfl | rfl)
      · exact hc hsmall
      · exact hc hcapital
    · rintro rfl
      exact hc hhex

theorem denotesOctet_iff {a b : Char} {o : UInt8} :
    DenotesOctet a b o ↔ readOctet [a, b] = some o := by
  simp only [DenotesOctet, isDigitOf_iff, readOctet_pair_iff]

/-- Two characters have the normal form of an octet if and only if they denote it. -/
theorem denotesOctet_iff_normal {a b : Char} {o : UInt8} :
    DenotesOctet a b o ↔ ([a, b].map colonForDash).map lowerChar = octetChars o := by
  rw [denotesOctet_iff, readOctet_eq_some_iff]
  have hdash : ∀ {c : Char} {d : Fin 16}, lowerChar (colonForDash c) = hexDigit d ↔
      lowerChar c = hexDigit d := by
    intro c d
    rw [colonForDash]
    split
    · rename_i hc
      have hnone : ∀ d : Fin 16, lowerChar ':' ≠ hexDigit d ∧ lowerChar '-' ≠ hexDigit d := by
        decide
      exact iff_of_false (hnone d).1 (hc ▸ (hnone d).2)
    · rfl
  have hlt := o.toNat_lt
  simp only [List.map_cons, List.map_nil, octetChars, List.cons.injEq, and_true]
  exact and_congr (hdash (d := ⟨o.toNat / 16, by omega⟩)).symm
    (hdash (d := ⟨o.toNat % 16, by omega⟩)).symm

theorem lowerChar_colonForDash_eq_colon_iff {c : Char} :
    lowerChar (colonForDash c) = ':' ↔ c = ':' ∨ c = '-' := by
  rw [lowerChar_eq_colon_iff, colonForDash]
  split
  · rename_i hc
    simp [hc]
  · rename_i hc
    simp [hc]

end characters

theorem Denotes.ne_nil {cs : List Char} {os : List UInt8} (h : Denotes cs os) : os ≠ [] := by
  cases h <;> simp

/-- A text denotes octets if and only if its normal form is that of the octets. -/
theorem denotes_iff {cs : List Char} {o : UInt8} {os : List UInt8} :
    Denotes cs (o :: os) ↔
      (cs.map colonForDash).map lowerChar = [':'].intercalate ((o :: os).map octetChars) := by
  have hpair : ∀ {cs : List Char} {o : UInt8},
      (cs.map colonForDash).map lowerChar = octetChars o → ∃ a b, cs = [a, b] := fun h => by
    have hlength := congrArg List.length h
    simpa [octetChars, List.length_eq_two] using hlength
  -- an octet takes two characters of the text, and one more if another octet follows
  induction os generalizing cs o with
  | nil =>
    rw [List.map_singleton, List.intercalate_singleton]
    constructor
    · rintro (hoctet | ⟨_, _, hothers⟩)
      · exact denotesOctet_iff_normal.mp hoctet
      · exact absurd rfl hothers.ne_nil
    · intro h
      obtain ⟨a, b, rfl⟩ := hpair h
      exact .last (denotesOctet_iff_normal.mpr h)
  | cons p os ih =>
    rw [List.map_cons, List.map_cons, List.intercalate_cons_cons, ← List.map_cons,
      List.append_assoc]
    constructor
    · rintro (_ | @⟨a, b, _, sep, cs, _, hoctet, hsep, hothers⟩)
      rw [show a :: b :: sep :: cs = [a, b] ++ (sep :: cs) from rfl, List.map_append,
        List.map_append, denotesOctet_iff_normal.mp hoctet, List.map_cons, List.map_cons,
        lowerChar_colonForDash_eq_colon_iff.mpr hsep, ih.mp hothers, List.singleton_append]
    · intro h
      rw [List.map_map] at h
      obtain ⟨pair, others, rfl, hfirst, hothers⟩ := List.map_eq_append_iff.mp h
      obtain ⟨sep, cs, rfl, hsep, hrest⟩ := List.map_eq_cons_iff.mp hothers
      rw [← List.map_map] at hfirst hrest
      obtain ⟨a, b, rfl⟩ := hpair hfirst
      exact .cons (denotesOctet_iff_normal.mpr hfirst)
        (lowerChar_colonForDash_eq_colon_iff.mp hsep) (ih.mpr hrest)

theorem readChars_iff_denotes {cs : List Char} {m : MacAddress} :
    readChars cs = some m ↔ Denotes cs m.bytes := by
  rw [readChars_eq_some_iff, chars_eq_intercalate, octets_eq, bytes, denotes_iff]

theorem isBlank_of_denotes {cs : List Char} {os : List UInt8} (h : Denotes cs os) :
    ∀ c ∈ cs, isBlank c = false := by
  have hdigit : ∀ {c : Char} {v : Nat}, IsDigitOf c v → isBlank c = false := by
    rintro c v ⟨hv, hc⟩
    have hall : ∀ v : Fin 16, isBlank (Nat.digitChar v.val) = false ∧
        isBlank (Nat.digitChar v.val).toUpper = false := by decide
    obtain rfl | rfl := hc
    · exact (hall ⟨v, hv⟩).1
    · exact (hall ⟨v, hv⟩).2
  have hsep : ∀ {c : Char}, c = ':' ∨ c = '-' → isBlank c = false := by
    rintro c (rfl | rfl) <;> decide
  induction h with
  | last octet =>
    obtain ⟨x, y, ha, hb, -⟩ := octet
    simp [hdigit ha, hdigit hb]
  | cons octet separator _ ih =>
    obtain ⟨x, y, ha, hb, -⟩ := octet
    simpa [hdigit ha, hdigit hb, hsep separator] using ih

/-- A text is read as the address whose octets it spells. -/
theorem read?_iff_spells {raw : String} {m : MacAddress} :
    read? raw = some m ↔ Spells raw m.bytes := by
  rw [read?]
  constructor
  · intro h
    obtain ⟨before, after, hraw, hbefore, hafter⟩ := exists_trim raw.toList
    exact ⟨before, _, after, hraw, hbefore, hafter, readChars_iff_denotes.mp h⟩
  · rintro ⟨before, body, after, hraw, hbefore, hafter, hbody⟩
    rw [hraw, trim_surrounded hbefore (isBlank_of_denotes hbody) hafter]
    exact readChars_iff_denotes.mpr hbody

theorem isCanonical_text (m : MacAddress) : IsCanonical m.text := by
  refine ⟨m.octets, ?_, rfl, fun pair hpair => ?_⟩
  · rw [text, String.toList_ofList, chars_eq_intercalate]
  · obtain ⟨o, rfl⟩ := mem_octets hpair
    refine ⟨rfl, fun c hc => ?_⟩
    obtain ⟨d, rfl⟩ := exists_hexDigit_of_mem_octetChars hc
    have hall : ∀ d : Fin 16, hexDigit d ∈ "0123456789abcdef".toList := by decide
    exact hall d

theorem ofJson?_compact (m : MacAddress) :
    (Json.read? m.toJson.compact).bind ofJson? = some m := by
  have hcompact : m.toJson.compact = Json.quoted m.text := by
    simp only [toJson, Json.compact, Json.leafText]
  rw [hcompact, Json.read?_quoted, Option.bind_some, ofJson?, Json.asString?, Option.bind_some,
    read?_text]

/-- Beyond ASCII there are only blanks in a text that is read as an address. -/
theorem isBlank_of_read? {raw : String} {m : MacAddress} (h : read? raw = some m) :
    ∀ c ∈ raw.toList, 128 ≤ c.toNat → isBlank c = true := by
  obtain ⟨before, after, hraw, hbefore, hafter⟩ := exists_trim raw.toList
  intro c hc hge
  rw [hraw, List.mem_append, List.mem_append] at hc
  obtain hc | hc | hc := hc
  · exact hbefore c hc
  · have hascii := ascii_of_map_eq_chars ((readChars_eq_some_iff _ m).mp h) c hc
    exact absurd hge (Nat.not_le.mpr hascii)
  · exact hafter c hc

/-- A text is read as an address if and only if it spells six octets. The address has these octets,
its text is the normal form of what was read, and it is read back from its text and from its JSON
form. Two texts are read as one address if and only if they spell the same octets. -/
theorem reads_spelled_octets (raw : String) :
    ((read? raw).isSome = true ↔ ∃ os, os.length = 6 ∧ Spells raw os) ∧
      (∀ m, read? raw = some m →
        Spells raw m.bytes ∧ (∀ c ∈ raw.toList, 128 ≤ c.toNat → isBlank c = true) ∧
        m.text = String.ofList (normalize (trim raw.toList)) ∧ IsCanonical m.text ∧
        read? m.text = some m ∧ (Json.read? m.toJson.compact).bind ofJson? = some m) ∧
      ∀ other os os', os.length = 6 → Spells raw os → os'.length = 6 → Spells other os' →
        (read? raw = read? other ↔ os = os') := by
  refine ⟨?_, fun m h => ?_, fun other os os' hlength hraw hlength' hother => ?_⟩
  · rw [Option.isSome_iff_exists]
    constructor
    · rintro ⟨m, h⟩
      exact ⟨m.bytes, rfl, read?_iff_spells.mp h⟩
    · rintro ⟨os, hlength, h⟩
      obtain ⟨m, rfl⟩ := exists_bytes hlength
      exact ⟨m, read?_iff_spells.mpr h⟩
  · refine ⟨read?_iff_spells.mp h, isBlank_of_read? h, ?_, isCanonical_text m, read?_text m,
      ofJson?_compact m⟩
    rw [text, normalize_of_readChars h]
  · obtain ⟨m, rfl⟩ := exists_bytes hlength
    obtain ⟨m', rfl⟩ := exists_bytes hlength'
    rw [read?_iff_spells.mpr hraw, read?_iff_spells.mpr hother, Option.some.injEq]
    exact ⟨congrArg bytes, bytes_injective⟩

end MacAddress

end TrafficWarden
