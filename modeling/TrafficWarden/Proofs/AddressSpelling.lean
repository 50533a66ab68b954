import TrafficWarden.Proofs.AddressText

/-!
# Which texts are addresses

A text is read as a MAC address if and only if it is the text of that address once its blanks are
trimmed, its dashes are colons and its letters are small. A text is read as an IPv4 address if and
only if it is the text of that address.
-/

namespace TrafficWarden

namespace Text

/-- Small letters keep a separator that is no letter, and make none. -/
theorem splitAt_map_lowerChar {sep : Char} (h : ∀ c, lowerChar c = sep ↔ c = sep) (cs : List Char) :
    splitAt sep (cs.map lowerChar) = (splitAt sep cs).map (·.map lowerChar) := by
  induction cs with
  | nil => rfl
  | cons c rest ih =>
    rw [List.map_cons, splitAt, splitAt]
    by_cases hc : c = sep
    · rw [if_pos ((h c).mpr hc), if_pos hc, ih]
      rfl
    · rw [if_neg (mt (h c).mp hc), if_neg hc, ih]
      cases splitAt sep rest with
      | nil => rfl
      | cons piece pieces => rfl

theorem forall_ascii {P : Char → Prop} (h : ∀ n : Fin 128, P (Char.ofNat n)) {c : Char}
    (hc : c.toNat < 128) : P c := by
  have hn := h ⟨c.toNat, hc⟩
  rwa [Char.ofNat_toNat] at hn

/-- No character beyond ASCII is in a range that ends in it. -/
theorem not_le_of_toNat_ge {c d : Char} (hc : 128 ≤ c.toNat) (hd : d.toNat < 128) : ¬ c ≤ d := by
  intro hle
  have hnat : c.toNat ≤ d.toNat := UInt32.le_iff_toNat_le.mp (Char.le_def.mp hle)
  omega

theorem lowerChar_of_toNat_ge {c : Char} (h : 128 ≤ c.toNat) : lowerChar c = c := by
  have hle : ¬ c ≤ 'Z' := not_le_of_toNat_ge h (by decide)
  simp [lowerChar, isUpperLetter, hle]

theorem lowerChar_eq_colon_iff (c : Char) : lowerChar c = ':' ↔ c = ':' := by
  by_cases hc : c.toNat < 128
  · exact forall_ascii (P := fun c => lowerChar c = ':' ↔ c = ':') (by decide +kernel) hc
  · rw [lowerChar_of_toNat_ge (Nat.le_of_not_lt hc)]

theorem hexValue?_of_toNat_ge {c : Char} (h : 128 ≤ c.toNat) : hexValue? c = none := by
  have hdigit : ¬ c ≤ '9' := not_le_of_toNat_ge h (by decide)
  have hsmall : ¬ c ≤ 'f' := not_le_of_toNat_ge h (by decide)
  have hcapital : ¬ c ≤ 'F' := not_le_of_toNat_ge h (by decide)
  simp [hexValue?, isDigit, hdigit, hsmall, hcapital]

theorem ofNat_ge_or_nul {n : Nat} (h : 128 ≤ n) :
    128 ≤ (Char.ofNat n).toNat ∨ Char.ofNat n = Char.ofNat 0 := by
  by_cases hvalid : n.isValidChar
  · left
    rw [Char.ofNat, dif_pos hvalid]
    exact h
  · right
    rw [Char.ofNat, dif_neg hvalid]
    rfl

theorem ne_separator_of_toNat_ge {c : Char} (h : 128 ≤ c.toNat) : c ≠ ':' ∧ c ≠ '-' := by
  constructor <;> rintro rfl <;> exact absurd h (by decide)

/-- No small form of a character beyond ASCII is a hexadecimal digit or separates two of them. -/
theorem smallForm_of_toNat_ge {c d : Char} (h : 128 ≤ c.toNat) (hd : d ∈ smallForm c) :
    hexValue? d = none ∧ d ≠ ':' ∧ d ≠ '-' := by
  have hbeyond : ∀ {d : Char}, 128 ≤ d.toNat → hexValue? d = none ∧ d ≠ ':' ∧ d ≠ '-' := fun hge =>
    ⟨hexValue?_of_toNat_ge hge, ne_separator_of_toNat_ge hge⟩
  rw [smallForm, if_neg (Nat.not_lt.mpr h)] at hd
  split at hd
  · simp only [List.mem_cons, List.not_mem_nil, or_false] at hd
    obtain rfl | rfl := hd
    · decide
    · exact hbeyond (by decide)
  split at hd
  · rw [List.mem_singleton.mp hd]
    decide
  split at hd
  · rename_i r hr
    have hsmall : ∀ r ∈ capitalRuns, 128 ≤ r.small := by decide +kernel
    have hge := hsmall r (List.mem_of_find?_eq_some hr)
    rw [List.mem_singleton.mp hd]
    obtain hge | hnul := ofNat_ge_or_nul (Nat.le_trans hge (Nat.le_add_right r.small _))
    · exact hbeyond hge
    · rw [hnul]
      decide
  · exact List.mem_singleton.mp hd ▸ hbeyond h

end Text

namespace MacAddress

open Text

/-- A text without blanks around it, with colons for dashes and in small letters. -/
def normalized (raw : String) : String :=
  String.ofList (((Text.trim raw.toList).map colonForDash).map Text.lowerChar)

/-- A character is read as the value of the digit that its small form is. -/
theorem hexValue?_eq_some_iff (c : Char) (v : Nat) :
    hexValue? c = some v ↔ v < 16 ∧ lowerChar c = hexDigit v := by
  by_cases hc : c.toNat < 128
  · have hlt : ∀ v, hexValue? c = some v → v < 16 := by
      have hall := forall_ascii (P := fun c => (hexValue? c).all (· < 16) = true)
        (by decide +kernel) hc
      intro v hv
      simpa [hv] using hall
    have hdigit := forall_ascii
      (P := fun c => ∀ v : Fin 16, hexValue? c = some v.val ↔ lowerChar c = hexDigit v.val)
      (by decide +kernel) hc
    constructor
    · intro hv
      exact ⟨hlt v hv, (hdigit ⟨v, hlt v hv⟩).mp hv⟩
    · rintro ⟨hv, hlower⟩
      exact (hdigit ⟨v, hv⟩).mpr hlower
  · have hge : 128 ≤ c.toNat := Nat.le_of_not_lt hc
    rw [hexValue?_of_toNat_ge hge, lowerChar_of_toNat_ge hge]
    refine iff_of_false (by simp) ?_
    rintro ⟨hv, rfl⟩
    have hall : ∀ d : Fin 16, (hexDigit d).toNat < 128 := by decide
    exact absurd (hall ⟨v, hv⟩) hc

/-- Two characters are read as the octet whose digits they are. -/
theorem readOctet_pair_iff {a b : Char} {o : UInt8} :
    readOctet [a, b] = some o ↔
      ∃ x y, hexValue? a = some x ∧ hexValue? b = some y ∧ o.toNat = x * 16 + y := by
  have hvalue : ∀ {x y : Nat}, x < 16 → y < 16 →
      ((x * 16 + y).toUInt8 = o ↔ o.toNat = x * 16 + y) := by
    intro x y hx hy
    have hlt : x * 16 + y < 256 := by omega
    rw [← UInt8.toNat_inj, Nat.toUInt8_eq, UInt8.toNat_ofNat', Nat.mod_eq_of_lt hlt, eq_comm]
  have hdigit : ∀ {c : Char} {v : Nat}, hexValue? c = some v → v < 16 := fun h =>
    ((hexValue?_eq_some_iff _ _).mp h).1
  simp only [readOctet, Option.bind_eq_bind, Option.bind_eq_some_iff, Option.pure_def,
    Option.some.injEq]
  constructor
  · rintro ⟨x, ha, y, hb, ho⟩
    exact ⟨x, y, ha, hb, (hvalue (hdigit ha) (hdigit hb)).mp ho⟩
  · rintro ⟨x, y, ha, hb, ho⟩
    exact ⟨x, ha, y, hb, (hvalue (hdigit ha) (hdigit hb)).mpr ho⟩

theorem readOctet_eq_some_iff (cs : List Char) (o : UInt8) :
    readOctet cs = some o ↔ cs.map lowerChar = octetChars o := by
  have ho := o.toNat_lt
  match cs with
  | [] => simp [readOctet, octetChars]
  | [a] => simp [readOctet, octetChars]
  | a :: b :: c :: rest => simp [readOctet, octetChars]
  | [a, b] =>
    rw [readOctet_pair_iff]
    simp only [hexValue?_eq_some_iff, octetChars, List.map_cons, List.map_nil, List.cons.injEq,
      and_true]
    constructor
    · rintro ⟨x, y, ⟨hx, ha⟩, ⟨hy, hb⟩, hvalue⟩
      have hhigh : o.toNat / 16 = x := by omega
      have hlow : o.toNat % 16 = y := by omega
      rw [hhigh, hlow]
      exact ⟨ha, hb⟩
    · rintro ⟨ha, hb⟩
      exact ⟨o.toNat / 16, o.toNat % 16, ⟨by omega, ha⟩, ⟨by omega, hb⟩, by omega⟩

theorem readPairs_eq_some_iff (cs : List Char) (m : MacAddress) :
    readPairs cs = some m ↔ cs.map lowerChar = m.chars := by
  have hcolon : ∀ c, lowerChar c = ':' ↔ c = ':' := lowerChar_eq_colon_iff
  have hpieces : cs.map lowerChar = m.chars ↔
      (splitAt ':' cs).map (·.map lowerChar) = m.octets := by
    rw [← splitAt_map_lowerChar hcolon, ← splitAt_chars m]
    refine ⟨fun h => congrArg _ h, fun h => ?_⟩
    rw [splitAt_eq_splitOn, splitAt_eq_splitOn] at h
    have hjoin := congrArg [':'].intercalate h
    rwa [List.intercalate_splitOn, List.intercalate_splitOn] at hjoin
  rw [hpieces, readPairs]
  split
  · rename_i a b c d e f heq
    rw [heq]
    simp only [Option.bind_eq_bind, Option.bind_eq_some_iff, readOctet_eq_some_iff, octets,
      List.map_cons, List.map_nil, List.cons.injEq, and_true]
    constructor
    · rintro ⟨_, ha, _, hb, _, hc, _, hd, _, he, _, hf, hm⟩
      rw [← Option.some.inj hm]
      exact ⟨ha, hb, hc, hd, he, hf⟩
    · rintro ⟨ha, hb, hc, hd, he, hf⟩
      exact ⟨_, ha, _, hb, _, hc, _, hd, _, he, _, hf, rfl⟩
  · rename_i hshape
    refine iff_of_false (by simp) fun h => ?_
    simp only [octets, List.map_eq_cons_iff, List.map_eq_nil_iff] at h
    obtain ⟨a, _, hs, -, b, _, rfl, -, c, _, rfl, -, d, _, rfl, -, e, _, rfl, -, f, _, rfl, -,
      rfl⟩ := h
    exact hshape a b c d e f hs

/-- A character that is neither a digit nor a separator is in no text of an address, in whatever
case it is. -/
theorem lowerChar_not_mem_chars {c : Char} (hdigit : hexValue? c = none) (hcolon : c ≠ ':')
    (hdash : c ≠ '-') (m : MacAddress) : lowerChar (colonForDash c) ∉ m.chars := by
  intro hmem
  rw [colonForDash, if_neg hdash] at hmem
  obtain hlower | ⟨d, hlower⟩ := cases_of_mem_chars hmem
  · exact hcolon ((lowerChar_eq_colon_iff c).mp hlower)
  · have hvalue := (hexValue?_eq_some_iff c d.val).mpr ⟨d.isLt, hlower⟩
    exact absurd (hdigit.symm.trans hvalue) (by simp)

section ascii

variable {cs : List Char} {m : MacAddress}

theorem normalize_of_ascii (h : ∀ c ∈ cs, c.toNat < 128) :
    normalize cs = (cs.map colonForDash).map lowerChar := by
  have hsmall : smallForms cs = cs.map lowerChar := by
    rw [smallForms, List.flatMap_congr fun c hc => smallForm_of_toNat_lt (h c hc)]
    exact List.flatMap_pure_eq_map lowerChar cs
  have hsame : ∀ c ∈ cs, colonForDash (lowerChar c) = lowerChar (colonForDash c) := fun c hc =>
    forall_ascii (P := fun c => colonForDash (lowerChar c) = lowerChar (colonForDash c))
      (by decide +kernel) (h c hc)
  rw [normalize, hsmall, List.map_map, List.map_map]
  exact List.map_congr_left hsame

theorem ascii_of_map_eq_chars (h : (cs.map colonForDash).map lowerChar = m.chars) :
    ∀ c ∈ cs, c.toNat < 128 := by
  intro c hc
  refine Nat.lt_of_not_le fun hge => ?_
  have hmem : lowerChar (colonForDash c) ∈ m.chars :=
    h ▸ List.mem_map_of_mem (List.mem_map_of_mem hc)
  obtain ⟨hcolon, hdash⟩ := ne_separator_of_toNat_ge hge
  exact lowerChar_not_mem_chars (hexValue?_of_toNat_ge hge) hcolon hdash m hmem

/-- The small forms of characters beyond ASCII make no address of a text that is none. -/
theorem ascii_of_normalize (h : (normalize cs).map lowerChar = m.chars) :
    ∀ c ∈ cs, c.toNat < 128 := by
  intro c hc
  refine Nat.lt_of_not_le fun hge => ?_
  obtain ⟨d, hd⟩ := List.exists_mem_of_ne_nil _ (smallForm_ne_nil c)
  have hmem : lowerChar (colonForDash d) ∈ m.chars := h ▸
    List.mem_map_of_mem (List.mem_map_of_mem (List.mem_flatMap.mpr ⟨c, hc, hd⟩))
  obtain ⟨hdigit, hcolon, hdash⟩ := smallForm_of_toNat_ge hge hd
  exact lowerChar_not_mem_chars hdigit hcolon hdash m hmem

end ascii

theorem lowerChar_lowerChar (c : Char) : lowerChar (lowerChar c) = lowerChar c := by
  by_cases hc : c.toNat < 128
  · exact forall_ascii (P := fun c => lowerChar (lowerChar c) = lowerChar c) (by decide +kernel) hc
  · rw [lowerChar_of_toNat_ge (Nat.le_of_not_lt hc), lowerChar_of_toNat_ge (Nat.le_of_not_lt hc)]

theorem readChars_eq_some_iff (cs : List Char) (m : MacAddress) :
    readChars cs = some m ↔ (cs.map colonForDash).map lowerChar = m.chars := by
  rw [readChars, readPairs_eq_some_iff]
  have hlower : ∀ ds : List Char, (ds.map lowerChar).map lowerChar = ds.map lowerChar := by
    intro ds
    rw [List.map_map]
    exact List.map_congr_left fun c _ => lowerChar_lowerChar c
  constructor
  · intro h
    rwa [normalize_of_ascii (ascii_of_normalize h), hlower] at h
  · intro h
    rwa [normalize_of_ascii (ascii_of_map_eq_chars h), hlower]

/-- The normal form of a text that is read is the text of the address. -/
theorem normalize_of_readChars {cs : List Char} {m : MacAddress} (h : readChars cs = some m) :
    normalize cs = m.chars := by
  have hlower := (readChars_eq_some_iff cs m).mp h
  rw [normalize_of_ascii (ascii_of_map_eq_chars hlower), hlower]

/-- A text is read as an address if and only if its normal form is the text of the address. -/
theorem read?_eq_some_iff (raw : String) (m : MacAddress) :
    read? raw = some m ↔ normalized raw = m.text := by
  rw [read?, readChars_eq_some_iff, normalized, text, String.ofList_inj]

theorem text_injective {m m' : MacAddress} (h : m.text = m'.text) : m = m' := by
  have hread := read?_text m'
  rw [← h, read?_text] at hread
  exact Option.some.inj hread

end MacAddress

namespace Ipv4

theorem exists_digitChar {c : Char} (h : Text.isDigit c = true) :
    ∃ d : Fin 10, c = Nat.digitChar d := by
  have hlt : c.toNat < 128 := by
    simp only [Text.isDigit, Bool.and_eq_true, decide_eq_true_eq] at h
    have hle : c.toNat ≤ 57 := UInt32.le_iff_toNat_le.mp (Char.le_def.mp h.2)
    omega
  have hall := Text.forall_ascii
    (P := fun c => Text.isDigit c = true → ∃ d : Fin 10, c = Nat.digitChar d) (by decide +kernel)
    hlt
  exact hall h

/-- Whether a part is written again as it was read, if it is read at all. -/
def readsBack (cs : List Char) : Bool :=
  (readPart cs).all fun o => cs == Nat.toDigits 10 o.toNat

theorem readsBack_digits {cs : List Char} (hne : cs ≠ []) (hlength : cs.length ≤ 3)
    (hdigits : ∀ c ∈ cs, Text.isDigit c = true) : readsBack cs = true := by
  have hone : ∀ a : Fin 10, readsBack [Nat.digitChar a] = true := by decide +kernel
  have htwo : ∀ a b : Fin 10, readsBack [Nat.digitChar a, Nat.digitChar b] = true := by
    decide +kernel
  have hthree : ∀ a b c : Fin 10,
      readsBack [Nat.digitChar a, Nat.digitChar b, Nat.digitChar c] = true := by
    decide +kernel
  match cs, hne, hlength with
  | [a], _, _ =>
    obtain ⟨x, rfl⟩ := exists_digitChar (hdigits a (by simp))
    exact hone x
  | [a, b], _, _ =>
    obtain ⟨x, rfl⟩ := exists_digitChar (hdigits a (by simp))
    obtain ⟨y, rfl⟩ := exists_digitChar (hdigits b (by simp))
    exact htwo x y
  | [a, b, c], _, _ =>
    obtain ⟨x, rfl⟩ := exists_digitChar (hdigits a (by simp))
    obtain ⟨y, rfl⟩ := exists_digitChar (hdigits b (by simp))
    obtain ⟨z, rfl⟩ := exists_digitChar (hdigits c (by simp))
    exact hthree x y z

/-- A part of a dotted quad is written as the decimal digits of its value. -/
theorem eq_toDigits_of_readPart {cs : List Char} {o : UInt8} (h : readPart cs = some o) :
    cs = Nat.toDigits 10 o.toNat := by
  have hshape : (cs ≠ [] ∧ cs.length ≤ 3) ∧ ∀ c ∈ cs, Text.isDigit c = true := by
    unfold readPart at h
    split at h
    · exact absurd h (by simp)
    · rename_i hbad
      simpa using hbad
  have hback := readsBack_digits hshape.1.1 hshape.1.2 hshape.2
  simpa [readsBack, h] using hback

/-- A text is read as an address if and only if it is the text of the address. -/
theorem read?_eq_some_iff (cs : List Char) (ip : Ipv4) :
    read? cs = some ip ↔ cs = ip.text.toList := by
  refine ⟨fun h => ?_, fun h => by rw [h, read?_text]⟩
  unfold read? at h
  split at h
  · rename_i a b c d heq
    simp only [Option.bind_eq_bind, Option.bind_eq_some_iff] at h
    obtain ⟨w, ha, x, hb, y, hc, z, hd, hip⟩ := h
    have hparts : Text.splitAt '.' cs = (⟨w, x, y, z⟩ : Ipv4).parts := by
      rw [heq, eq_toDigits_of_readPart ha, eq_toDigits_of_readPart hb, eq_toDigits_of_readPart hc,
        eq_toDigits_of_readPart hd]
      rfl
    rw [← Option.some.inj hip, text_toList, ← hparts, Text.splitAt_eq_splitOn,
      List.intercalate_splitOn]
  · exact absurd h (by simp)

end Ipv4

end TrafficWarden
