import TrafficWarden.Proofs.DecimalDigits
import TrafficWarden.Proofs.JsonStrings

/-!
# Texts of JSON values

A text spells a value when it has the words of the value in their order, with any blanks between
them. Such a text is read as that value.
-/

namespace TrafficWarden.Json

/-- A text of blanks alone. -/
def IsGap (cs : List Char) : Prop := ∀ c ∈ cs, isSpace c = true

/-- Whether an integer fits in 64 bits, with or without sign. -/
def FitsWord (n : Int) : Prop := -0x8000000000000000 ≤ n ∧ n ≤ 0xFFFFFFFFFFFFFFFF

theorem fitsWord_of_admits {n : Int} (h : Text.Bounds.int64.admits n = true) : FitsWord n := by
  rw [Text.Bounds.admits, Bool.and_eq_true, decide_eq_true_eq, decide_eq_true_eq] at h
  obtain ⟨hleast, hgreatest⟩ := h
  exact ⟨hleast, Int.le_trans hgreatest (by decide)⟩

/-- What a text can be of: a value, the items of an array, or the members of an object. -/
inductive Part where
  | value (j : Json)
  | items (items : List Json)
  | members (members : List (String × Json))

/-- The texts of a part. A gap may stand beside each bracket, comma and colon. -/
inductive Spells : Part → List Char → Prop
  | null : Spells (.value .null) "null".toList
  | bool (b : Bool) : Spells (.value (.bool b)) (leafText (.bool b)).toList
  | integer {n : Int} (h : FitsWord n) : Spells (.value (.integer n)) (toString n).toList
  | string (s : String) : Spells (.value (.string s)) (quoted s).toList
  | emptyArray : Spells (.value (.array [])) ['[', ']']
  | emptyObject : Spells (.value (.object [])) ['\x7b', '\x7d']
  | array {before after cs items} (hb : IsGap before) (ha : IsGap after)
      (h : Spells (.items items) cs) :
      Spells (.value (.array items)) ('[' :: (before ++ cs ++ after ++ [']']))
  | object {before after cs members} (hb : IsGap before) (ha : IsGap after)
      (h : Spells (.members members) cs) :
      Spells (.value (.object members)) ('\x7b' :: (before ++ cs ++ after ++ ['\x7d']))
  | lastItem {cs j} (h : Spells (.value j) cs) : Spells (.items [j]) cs
  | item {cs ds before after j items} (hb : IsGap before) (ha : IsGap after)
      (h : Spells (.value j) cs) (ht : Spells (.items items) ds) :
      Spells (.items (j :: items)) (cs ++ before ++ ',' :: (after ++ ds))
  | lastMember {cs before after j} (name : String) (hb : IsGap before) (ha : IsGap after)
      (h : Spells (.value j) cs) :
      Spells (.members [(name, j)]) ((quoted name).toList ++ before ++ ':' :: (after ++ cs))
  | member {cs ds before after before' after' j members} (name : String) (hb : IsGap before)
      (ha : IsGap after) (hb' : IsGap before') (ha' : IsGap after') (h : Spells (.value j) cs)
      (ht : Spells (.members members) ds) :
      Spells (.members ((name, j) :: members)) ((quoted name).toList ++ before ++
        ':' :: (after ++ (cs ++ before' ++ ',' :: (after' ++ ds))))

section gaps

theorem isGap_nil : IsGap [] := by simp [IsGap]

theorem skipSpace_gap {gap : List Char} (h : IsGap gap) (cs : List Char) :
    skipSpace (gap ++ cs) = skipSpace cs := by
  induction gap with
  | nil => rfl
  | cons c gap ih =>
    obtain ⟨hc, hgap⟩ := List.forall_mem_cons.mp h
    rw [List.cons_append, skipSpace, List.dropWhile_cons_of_pos hc]
    exact ih hgap

theorem skipSpace_of_not_isSpace {c : Char} (h : isSpace c = false) (cs : List Char) :
    skipSpace (c :: cs) = c :: cs := by
  simp [skipSpace, h]

theorem skipSpace_skipSpace (cs : List Char) : skipSpace (skipSpace cs) = skipSpace cs := by
  induction cs with
  | nil => rfl
  | cons c cs ih =>
    cases hc : isSpace c with
    | true => simpa [skipSpace, hc] using ih
    | false => simp [skipSpace, hc]

theorem readValue_skipSpace (fuel : Nat) (cs : List Char) :
    readValue fuel (skipSpace cs) = readValue fuel cs := by
  cases fuel with
  | zero => rfl
  | succ fuel => simp only [readValue, skipSpace_skipSpace]

theorem readItems_skipSpace (fuel : Nat) (cs : List Char) :
    readItems fuel (skipSpace cs) = readItems fuel cs := by
  cases fuel with
  | zero => rfl
  | succ fuel => simp only [readItems, readValue_skipSpace]

theorem readMembers_skipSpace (fuel : Nat) (cs : List Char) :
    readMembers fuel (skipSpace cs) = readMembers fuel cs := by
  cases fuel with
  | zero => rfl
  | succ fuel => simp only [readMembers, skipSpace_skipSpace]

theorem readValue_gap {gap : List Char} (h : IsGap gap) (fuel : Nat) (cs : List Char) :
    readValue fuel (gap ++ cs) = readValue fuel cs := by
  rw [← readValue_skipSpace, skipSpace_gap h, readValue_skipSpace]

theorem readItems_gap {gap : List Char} (h : IsGap gap) (fuel : Nat) (cs : List Char) :
    readItems fuel (gap ++ cs) = readItems fuel cs := by
  rw [← readItems_skipSpace, skipSpace_gap h, readItems_skipSpace]

theorem readMembers_gap {gap : List Char} (h : IsGap gap) (fuel : Nat) (cs : List Char) :
    readMembers fuel (gap ++ cs) = readMembers fuel cs := by
  rw [← readMembers_skipSpace, skipSpace_gap h, readMembers_skipSpace]

end gaps

section numbers

/-- A text that does not go on with a number: it is at its end, or at a blank or a mark. -/
def Ends (rest : List Char) : Prop :=
  ∀ c, rest.head? = some c → isSpace c = true ∨ c = ',' ∨ c = ']' ∨ c = '\x7d'

theorem ends_gap {gap : List Char} (h : IsGap gap) {mark : Char}
    (hmark : mark = ',' ∨ mark = ']' ∨ mark = '\x7d') (rest : List Char) :
    Ends (gap ++ mark :: rest) := by
  intro c hc
  cases gap with
  | nil =>
    obtain rfl := Option.some.inj hc
    exact .inr hmark
  | cons d gap =>
    obtain rfl := Option.some.inj hc
    exact .inl (h d List.mem_cons_self)

variable {rest : List Char}

theorem Ends.head_ne (h : Ends rest) {c : Char} (hc : isSpace c = false) (hcomma : c ≠ ',')
    (hbracket : c ≠ ']') (hbrace : c ≠ '\x7d') (tail : List Char) : rest ≠ c :: tail := by
  rintro rfl
  rcases h c rfl with hspace | heq | heq | heq
  · rw [hc] at hspace
    cases hspace
  · exact hcomma heq
  · exact hbracket heq
  · exact hbrace heq

theorem Ends.not_isDigit (h : Ends rest) {c : Char} (hc : rest.head? = some c) :
    Text.isDigit c = false := by
  have hspace : isSpace c = true → Text.isDigit c = false := by
    simp only [isSpace, Bool.or_eq_true, beq_iff_eq]
    rintro (((rfl | rfl) | rfl) | rfl) <;> decide
  rcases h c hc with hc | rfl | rfl | rfl
  · exact hspace hc
  · decide
  · decide
  · decide

theorem spanDigits_append {digits : List Char} (hdigits : ∀ c ∈ digits, Text.isDigit c = true)
    (h : Ends rest) : spanDigits (digits ++ rest) = (digits, rest) := by
  have hrest : rest.takeWhile Text.isDigit = [] ∧ rest.dropWhile Text.isDigit = rest := by
    cases rest with
    | nil => exact ⟨rfl, rfl⟩
    | cons c rest =>
      have hc := h.not_isDigit (c := c) rfl
      simp [hc]
  rw [spanDigits, List.takeWhile_append_of_pos hdigits, List.dropWhile_append_of_pos hdigits,
    hrest.1, hrest.2, List.append_nil]

theorem readFraction_of_ends (h : Ends rest) : readFraction rest = some ([], rest) := by
  have hpoint := h.head_ne (c := '.') (by decide) (by decide) (by decide) (by decide)
  rw [readFraction]
  intro tail heq
  exact hpoint tail heq

theorem readExponent_of_ends (h : Ends rest) : readExponent rest = some ([], rest) := by
  cases rest with
  | nil => rfl
  | cons c rest =>
    have hmark : isExponentMark c = false := by
      have hsmall := h.head_ne (c := 'e') (by decide) (by decide) (by decide) (by decide) rest
      have hcapital := h.head_ne (c := 'E') (by decide) (by decide) (by decide) (by decide) rest
      simp only [ne_eq, List.cons.injEq, and_true] at hsmall hcapital
      simp [isExponentMark, hsmall, hcapital]
    simp [readExponent, hmark]

/-- The digits of a number are read as an integer if it fits. -/
theorem readMagnitude_toDigits {negative : Bool} {m : Nat} {n : Int}
    (hn : integerOf? negative m = some n) (h : Ends rest) :
    readMagnitude negative (Nat.toDigits 10 m ++ rest) = some (.integer n, rest) := by
  have hspan := spanDigits_append (Text.isDigit_toDigits m) h
  have hwhole : ((Nat.toDigits 10 m).isEmpty || (1 < (Nat.toDigits 10 m).length &&
      (Nat.toDigits 10 m).head? == some '0')) = false := by
    rcases Text.toDigits_cases m with heq | ⟨c, cs, heq, hc⟩
    · rw [heq]
      rfl
    · rw [heq]
      simp [hc]
  rw [readMagnitude]
  simp [hspan, hwhole, readFraction_of_ends h, readExponent_of_ends h,
    Text.digitsValue_toDigits, hn]

theorem toList_toString_ofNat (m : Nat) : (toString (Int.ofNat m)).toList = Nat.toDigits 10 m := by
  rw [Int.toString_eq_repr]
  exact String.toList_ofList

theorem toList_toString_negSucc (m : Nat) :
    (toString (Int.negSucc m)).toList = '-' :: Nat.toDigits 10 (m + 1) := by
  rw [Int.toString_eq_repr]
  change ("-" ++ (m + 1).repr).toList = _
  simp only [String.toList_append, Nat.repr, String.toList_ofList]
  rfl

theorem readNumber_of_digit {c : Char} (hc : Text.isDigit c = true) (cs : List Char) :
    readNumber (c :: cs) = readMagnitude false (c :: cs) := by
  rw [readNumber]
  rintro tail heq
  obtain rfl := (List.cons.inj heq).1
  exact absurd hc (by decide)

/-- An integer that fits is read back from what is written for it. -/
theorem readNumber_toString {n : Int} (hn : FitsWord n) (h : Ends rest) :
    readNumber ((toString n).toList ++ rest) = some (.integer n, rest) := by
  obtain ⟨hlow, hhigh⟩ := hn
  cases n with
  | ofNat m =>
    have hfits : integerOf? false m = some (Int.ofNat m) := by
      have hm : m ≤ 0xFFFFFFFFFFFFFFFF := Int.ofNat_le.mp hhigh
      simp [integerOf?, hm]
    have hread := readMagnitude_toDigits hfits h
    rw [toList_toString_ofNat]
    obtain ⟨c, cs, heq, hc⟩ := Text.exists_toDigits_cons m
    rw [heq, List.cons_append] at hread ⊢
    rw [readNumber_of_digit hc, hread]
  | negSucc m =>
    have hfits : integerOf? true (m + 1) = some (Int.negSucc m) := by
      have hm : ¬ 0x8000000000000000 < m + 1 := by omega
      simp only [integerOf?, if_true, Nat.succ_ne_zero, hm, or_self, if_false]
      rfl
    rw [toList_toString_negSucc, List.cons_append, readNumber]
    exact readMagnitude_toDigits hfits h

/-- Where no other value begins, a number is read. -/
theorem readValue_of_number {c : Char} (hc : Text.isDigit c = true ∨ c = '-') (fuel : Nat)
    (cs : List Char) : readValue (fuel + 1) (c :: cs) = readNumber (c :: cs) := by
  have hspace : isSpace c = false := by
    cases hc' : isSpace c with
    | false => rfl
    | true =>
      simp only [isSpace, Bool.or_eq_true, beq_iff_eq] at hc'
      rcases hc' with ((rfl | rfl) | rfl) | rfl <;> exact absurd hc (by decide)
  rw [readValue, skipSpace_of_not_isSpace hspace]
  split
  all_goals first
    | rfl
    | rename_i heq
      obtain rfl := (List.cons.inj heq).1
      exact absurd hc (by decide)

theorem exists_toString_cons (n : Int) :
    ∃ c cs, (toString n).toList = c :: cs ∧ (Text.isDigit c = true ∨ c = '-') := by
  cases n with
  | ofNat m =>
    obtain ⟨c, cs, heq, hc⟩ := Text.exists_toDigits_cons m
    exact ⟨c, cs, (toList_toString_ofNat m).trans heq, .inl hc⟩
  | negSucc m => exact ⟨'-', _, toList_toString_negSucc m, .inr rfl⟩

theorem readValue_toString {n : Int} (hn : FitsWord n) (h : Ends rest) (fuel : Nat) :
    readValue (fuel + 1) ((toString n).toList ++ rest) = some (.integer n, rest) := by
  have hread := readNumber_toString hn h
  obtain ⟨c, cs, heq, hc⟩ := exists_toString_cons n
  rw [heq, List.cons_append] at hread ⊢
  rw [readValue_of_number hc, hread]

end numbers

section reading

variable {fuel : Nat} {cs tail gap before after rest : List Char} {j : Json} {items : List Json}
  {members : List (String × Json)}

/-- A name as it is read. -/
def readMember (m : String × Json) : Option (List Char) × Json := (some m.1.toList, m.2)

theorem ofMembers_map_readMember (members : List (String × Json)) :
    ofMembers (members.map readMember) = .object members := by
  have hall : (members.map readMember).mapM
      (fun m => m.1.map fun cs => (String.ofList cs, m.2)) = some members := by
    induction members with
    | nil => rfl
    | cons m members ih => simp [readMember, ih]
  unfold ofMembers
  split
  · rename_i named hnamed
    obtain rfl : members = named := Option.some.inj (hall.symm.trans hnamed)
    rfl
  · rename_i hnone
    cases hall.symm.trans hnone

theorem readItems_bracket (fuel : Nat) (rest : List Char) :
    readItems fuel (']' :: rest) = none := by
  cases fuel with
  | zero => rfl
  | succ fuel => cases fuel <;> rfl

theorem readMembers_brace (fuel : Nat) (rest : List Char) :
    readMembers fuel ('\x7d' :: rest) = none := by
  cases fuel <;> rfl

theorem readValue_array (h : readItems fuel cs = some (items, rest)) :
    readValue (fuel + 1) ('[' :: cs) = some (.array items, rest) := by
  rw [← readItems_skipSpace] at h
  unfold readValue
  rw [skipSpace_of_not_isSpace (by decide)]
  split
  case h_5 inner heq =>
    obtain rfl : cs = inner := (List.cons.inj heq).2
    split
    · rename_i hclosed
      rw [hclosed, readItems_bracket] at h
      cases h
    · rw [h]
      rfl
  case h_7 hbracket _ => exact absurd rfl (hbracket cs)
  all_goals
    rename_i heq
    exact absurd (List.cons.inj heq).1 (by decide)

theorem readValue_object (h : readMembers fuel cs = some (members.map readMember, rest)) :
    readValue (fuel + 1) ('\x7b' :: cs) = some (.object members, rest) := by
  rw [← readMembers_skipSpace] at h
  unfold readValue
  rw [skipSpace_of_not_isSpace (by decide)]
  split
  case h_6 inner heq =>
    obtain rfl : cs = inner := (List.cons.inj heq).2
    split
    · rename_i hclosed
      rw [hclosed, readMembers_brace] at h
      cases h
    · rw [h, ← ofMembers_map_readMember]
      rfl
  case h_7 hbrace => exact absurd rfl (hbrace cs)
  all_goals
    rename_i heq
    exact absurd (List.cons.inj heq).1 (by decide)

theorem readItems_last (hgap : IsGap gap)
    (h : readValue fuel cs = some (j, gap ++ ']' :: rest)) :
    readItems (fuel + 1) cs = some ([j], rest) := by
  have hskip := (skipSpace_gap hgap (']' :: rest)).trans (skipSpace_of_not_isSpace rfl rest)
  simp [readItems, h, hskip]

theorem readItems_cons (hgap : IsGap gap)
    (h : readValue fuel cs = some (j, gap ++ ',' :: tail))
    (ht : readItems fuel tail = some (items, rest)) :
    readItems (fuel + 1) cs = some (j :: items, rest) := by
  have hskip := (skipSpace_gap hgap (',' :: tail)).trans (skipSpace_of_not_isSpace rfl tail)
  simp [readItems, h, hskip, ht]

/-- The name of a member is read with the colon after it. -/
theorem readMembers_quoted (name : String) (hb : IsGap before) (tail : List Char) :
    readMembers (fuel + 1) ((quoted name).toList ++ (before ++ ':' :: tail)) = (do
      let (value, rest) ← readValue fuel tail
      match skipSpace rest with
      | ',' :: rest =>
        let (members, rest) ← readMembers fuel rest
        return (readMember (name, value) :: members, rest)
      | '\x7d' :: rest => return ([readMember (name, value)], rest)
      | _ => none) := by
  have hread := readString_to_quote name.toList (before ++ ':' :: tail)
  have hcolon := (skipSpace_gap hb (':' :: tail)).trans (skipSpace_of_not_isSpace rfl tail)
  rw [toList_quoted_append, readMembers, skipSpace_of_not_isSpace (by decide)]
  simp only [hread, Option.bind_eq_bind, Option.bind_some, hcolon]
  rfl

theorem readMembers_last (name : String) (hb : IsGap before) (hgap : IsGap gap)
    (h : readValue fuel cs = some (j, gap ++ '\x7d' :: rest)) :
    readMembers (fuel + 1) ((quoted name).toList ++ (before ++ ':' :: cs)) =
      some ([readMember (name, j)], rest) := by
  have hskip := (skipSpace_gap hgap ('\x7d' :: rest)).trans (skipSpace_of_not_isSpace rfl rest)
  simp [readMembers_quoted name hb, h, hskip]

theorem readMembers_cons (name : String) (hb : IsGap before) (hgap : IsGap gap)
    (h : readValue fuel cs = some (j, gap ++ ',' :: tail))
    (ht : readMembers fuel tail = some (members.map readMember, rest)) :
    readMembers (fuel + 1) ((quoted name).toList ++ (before ++ ':' :: cs)) =
      some (((name, j) :: members).map readMember, rest) := by
  have hskip := (skipSpace_gap hgap (',' :: tail)).trans (skipSpace_of_not_isSpace rfl tail)
  simp [readMembers_quoted name hb, h, hskip, ht]

/-- What it is to read a part from a text, with any fuel that the length of the text asks for, and
whatever comes after it. -/
def Part.IsRead : Part → List Char → Prop
  | .value j, cs => ∀ fuel rest, 2 * cs.length ≤ fuel → Ends rest →
      readValue fuel (cs ++ rest) = some (j, rest)
  | .items items, cs => ∀ fuel gap rest, 2 * cs.length < fuel → IsGap gap →
      readItems fuel (cs ++ (gap ++ ']' :: rest)) = some (items, rest)
  | .members members, cs => ∀ fuel gap rest, 2 * cs.length < fuel → IsGap gap →
      readMembers fuel (cs ++ (gap ++ '\x7d' :: rest)) = some (members.map readMember, rest)

/-- Every text of a part is read as that part. -/
theorem Spells.isRead {p : Part} {cs : List Char} (h : Spells p cs) : p.IsRead cs := by
  induction h with
  | null =>
    intro fuel rest hfuel _
    obtain ⟨fuel, rfl⟩ := Nat.exists_eq_add_one.mpr (Nat.lt_of_lt_of_le (by decide) hfuel)
    rfl
  | bool b =>
    intro fuel rest hfuel _
    have hpos : 0 < 2 * (leafText (.bool b)).toList.length := by cases b <;> decide
    obtain ⟨fuel, rfl⟩ := Nat.exists_eq_add_one.mpr (Nat.lt_of_lt_of_le hpos hfuel)
    cases b <;> rfl
  | @integer n hn =>
    intro fuel rest hfuel hrest
    obtain ⟨c, cs, heq, -⟩ := exists_toString_cons n
    have hlength : 0 < (toString n).toList.length := by simp only [heq, List.length_cons]; omega
    obtain ⟨fuel, rfl⟩ : ∃ k, fuel = k + 1 := ⟨fuel - 1, by omega⟩
    exact readValue_toString hn hrest fuel
  | string s =>
    intro fuel rest hfuel _
    have hlength : 0 < (quoted s).toList.length := by simp [toList_quoted]
    obtain ⟨fuel, rfl⟩ : ∃ k, fuel = k + 1 := ⟨fuel - 1, by omega⟩
    exact readValue_quoted s fuel rest
  | emptyArray =>
    intro fuel rest hfuel _
    obtain ⟨fuel, rfl⟩ := Nat.exists_eq_add_one.mpr (Nat.lt_of_lt_of_le (by decide) hfuel)
    rfl
  | emptyObject =>
    intro fuel rest hfuel _
    obtain ⟨fuel, rfl⟩ := Nat.exists_eq_add_one.mpr (Nat.lt_of_lt_of_le (by decide) hfuel)
    rfl
  | @array before after cs items hb ha _ ih =>
    intro fuel rest hfuel _
    simp only [List.length_cons, List.length_append, List.length_nil] at hfuel
    obtain ⟨fuel, rfl⟩ : ∃ k, fuel = k + 1 := ⟨fuel - 1, by omega⟩
    have hitems := ih fuel after rest (by omega) ha
    simp only [List.cons_append, List.append_assoc]
    apply readValue_array
    rw [readItems_gap hb]
    exact hitems
  | @object before after cs members hb ha _ ih =>
    intro fuel rest hfuel _
    simp only [List.length_cons, List.length_append, List.length_nil] at hfuel
    obtain ⟨fuel, rfl⟩ : ∃ k, fuel = k + 1 := ⟨fuel - 1, by omega⟩
    have hmembers := ih fuel after rest (by omega) ha
    simp only [List.cons_append, List.append_assoc]
    apply readValue_object
    rw [readMembers_gap hb]
    exact hmembers
  | lastItem _ ih =>
    intro fuel gap rest hfuel hgap
    obtain ⟨fuel, rfl⟩ := Nat.exists_eq_add_one.mpr (Nat.zero_lt_of_lt hfuel)
    exact readItems_last hgap (ih fuel _ (by omega) (ends_gap hgap (by decide) rest))
  | @item cs ds before after j items hb ha _ _ ih iht =>
    intro fuel gap rest hfuel hgap
    simp only [List.length_cons, List.length_append] at hfuel
    obtain ⟨fuel, rfl⟩ := Nat.exists_eq_add_one.mpr (Nat.zero_lt_of_lt hfuel)
    simp only [List.cons_append, List.append_assoc]
    apply readItems_cons hb (ih fuel _ (by omega) (ends_gap hb (by decide) _))
    rw [readItems_gap ha]
    exact iht fuel gap rest (by omega) hgap
  | @lastMember cs before after j name hb ha _ ih =>
    intro fuel gap rest hfuel hgap
    simp only [List.length_cons, List.length_append] at hfuel
    obtain ⟨fuel, rfl⟩ := Nat.exists_eq_add_one.mpr (Nat.zero_lt_of_lt hfuel)
    simp only [List.cons_append, List.append_assoc]
    apply readMembers_last name hb hgap
    rw [readValue_gap ha]
    exact ih fuel _ (by omega) (ends_gap hgap (by decide) rest)
  | @member cs ds before after before' after' j members name hb ha hb' ha' _ _ ih iht =>
    intro fuel gap rest hfuel hgap
    simp only [List.length_cons, List.length_append] at hfuel
    obtain ⟨fuel, rfl⟩ := Nat.exists_eq_add_one.mpr (Nat.zero_lt_of_lt hfuel)
    simp only [List.cons_append, List.append_assoc]
    have hends : Ends (before' ++ ',' :: (after' ++ (ds ++ (gap ++ '\x7d' :: rest)))) :=
      ends_gap hb' (by decide) _
    have hvalue := ih fuel _ (by omega) hends
    apply readMembers_cons name hb hb'
    · rw [readValue_gap ha]
      exact hvalue
    · rw [readMembers_gap ha']
      exact iht fuel gap rest (by omega) hgap

/-- A text of a value, with gaps around it, is read as that value. -/
theorem read?_of_spells {text : String} (hb : IsGap before) (ha : IsGap after)
    (h : Spells (.value j) cs) (htext : text.toList = before ++ cs ++ after) :
    read? text = some j := by
  have hends : Ends after := by
    intro c hc
    exact .inl (ha c (List.mem_of_mem_head? hc))
  have hread := h.isRead (2 * text.toList.length + 1) after (by simp [htext]; omega) hends
  have hblank : skipSpace after = [] := by
    have hskip := skipSpace_gap ha []
    rwa [List.append_nil] at hskip
  rw [read?, htext, List.append_assoc, readValue_gap hb, ← List.append_assoc, ← htext, hread]
  simp [hblank]

end reading

end TrafficWarden.Json
