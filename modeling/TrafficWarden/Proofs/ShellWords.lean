import TrafficWarden.Shell.Run
import TrafficWarden.Shell.Word

/-!
# Words that a shell takes as they are

A text spells a word if its quotes and backslashes leave nothing in it that a shell expands. The
tokens of a script hold such a word as one word, and expansion makes exactly one field of it. The
quoted form of any word spells this word.
-/

namespace TrafficWarden.Shell

/-- Characters that have, or may have, a meaning to a shell where they are not quoted. -/
def specialChars : List Char :=
  ['|', '&', ';', '<', '>', '(', ')', '$', '\x60', '\\', '"', '\'', ' ', '\t', '\n', '*', '?', '[',
    ']', '#', '~', '=', '%', '!', '^', '\x7b', '\x7d']

/-- A text spells a word: outside of quotes are only characters without a meaning, and characters
after a backslash. -/
inductive Spells : List Char → List Char → Prop
  | nil : Spells [] []
  | plain {c : Char} {raw word : List Char} (hc : c ∉ specialChars) (h : Spells raw word) :
    Spells (c :: raw) (c :: word)
  | escaped {c : Char} {raw word : List Char} (hc : c ≠ '\n') (h : Spells raw word) :
    Spells ('\\' :: c :: raw) (c :: word)
  | quoted {inner raw word : List Char} (hinner : '\'' ∉ inner) (h : Spells raw word) :
    Spells ('\'' :: (inner ++ '\'' :: raw)) (inner ++ word)

/-- The text of a piece that is not expanded and has no special characters outside of quotes. -/
def Piece.fixed? : Piece → Option String
  | .text s quoted => if quoted || s.toList.all (· ∉ specialChars) then some s else none
  | _ => none

/-- The text of a word that stands for itself once its quotes are removed. -/
def Word.fixed? : Word → Option String
  | [] => some ""
  | piece :: rest => do
    let s ← piece.fixed?
    let t ← fixed? rest
    return s ++ t

section quoting

theorem not_special_of_all {p : Char → Bool} (hp : specialChars.all (fun c => !p c) = true)
    {c : Char} (h : p c = true) : c ∉ specialChars := by
  intro hc
  have hnot := List.all_eq_true.mp hp c hc
  rw [h] at hnot
  exact absurd hnot (by decide)

theorem spells_of_all_isSafe {cs : List Char} (h : ∀ c ∈ cs, isSafe c = true) : Spells cs cs := by
  induction cs with
  | nil => exact .nil
  | cons c cs ih =>
    rw [List.forall_mem_cons] at h
    exact .plain (not_special_of_all (by decide) h.1) (ih h.2)

theorem spells_quoteChar (cs : List Char) {inner : List Char} (h : '\'' ∉ inner) :
    Spells ('\'' :: (inner ++ (cs.flatMap quoteChar ++ ['\'']))) (inner ++ cs) := by
  -- `inner` is what has been read since the last single quote was opened
  induction cs generalizing inner with
  | nil => exact .quoted h .nil
  | cons c cs ih =>
    by_cases hc : c = '\''
    · subst hc
      have hrest : Spells ('\'' :: (cs.flatMap quoteChar ++ ['\''])) cs := ih List.not_mem_nil
      exact .quoted h (.escaped (by decide) hrest)
    · have hmore : '\'' ∉ inner ++ [c] := by simp [h, Ne.symm hc]
      have hrest := ih hmore
      rw [List.append_assoc, List.append_assoc] at hrest
      rw [List.flatMap_cons, quoteChar, if_neg hc]
      exact hrest

theorem spells_quoteChars (cs : List Char) : Spells (quoteChars cs) cs := by
  unfold quoteChars
  split
  · rename_i hsafe
    rw [isSafeWord, Bool.and_eq_true, List.all_eq_true] at hsafe
    exact spells_of_all_isSafe hsafe.2
  · exact spells_quoteChar cs List.not_mem_nil

example : quote "it's; reboot" = "'it'\\''s; reboot'" := by decide

theorem quoteChars_ne_nil (cs : List Char) : quoteChars cs ≠ [] := by
  unfold quoteChars
  split
  · rename_i hsafe
    rintro rfl
    exact absurd hsafe (by decide)
  · exact List.cons_ne_nil _ _

end quoting

section reading

/-- A text that begins with the end of a word. -/
def Stops (rest : List Char) : Prop := ∀ c ∈ rest.head?, c = ' ' ∨ c = '\n'

theorem fixed?_cons_text {s : String} {quoted : Bool} {w : Word} {t : String}
    (hs : quoted = true ∨ ∀ c ∈ s.toList, c ∉ specialChars) (hw : w.fixed? = some t) :
    Word.fixed? (.text s quoted :: w) = some (s ++ t) := by
  have hpiece : (Piece.text s quoted).fixed? = some s := by
    rw [Piece.fixed?, if_pos]
    simpa using hs
  rw [Word.fixed?, hpiece, hw]
  rfl

theorem fixed?_eq_some_cons {piece : Piece} {w : Word} {t : String}
    (h : Word.fixed? (piece :: w) = some t) :
    ∃ s quoted t', piece = .text s quoted ∧ (quoted = true ∨ ∀ c ∈ s.toList, c ∉ specialChars) ∧
      w.fixed? = some t' ∧ t = s ++ t' := by
  rw [Word.fixed?, Option.bind_eq_bind, Option.bind_eq_some_iff] at h
  obtain ⟨s, hs, h⟩ := h
  obtain ⟨t', hw, ht⟩ := Option.bind_eq_some_iff.mp h
  cases piece with
  | text s' quoted =>
    rw [Piece.fixed?, Option.ite_none_right_eq_some] at hs
    obtain ⟨hs, heq⟩ := hs
    rw [← Option.some.inj ht, ← Option.some.inj heq]
    exact ⟨s', quoted, t', rfl, by simpa using hs, hw, rfl⟩
  | parameter name quoted => exact absurd hs (by simp [Piece.fixed?])
  | output source quoted => exact absurd hs (by simp [Piece.fixed?])

theorem fixed?_consChar {c : Char} {quoted : Bool} (hc : quoted = true ∨ c ∉ specialChars)
    {w : Word} {t : String} (h : w.fixed? = some t) :
    Word.fixed? (consChar c quoted w) = some (String.singleton c ++ t) := by
  have hsingle : quoted = true ∨ ∀ a ∈ (String.singleton c).toList, a ∉ specialChars := by
    simpa using hc
  cases w with
  | nil => exact fixed?_cons_text hsingle h
  | cons piece w =>
    obtain ⟨s, quoted', t', rfl, hs, hw, rfl⟩ := fixed?_eq_some_cons h
    by_cases hsame : quoted' = quoted
    · subst hsame
      have hboth : quoted' = true ∨ ∀ a ∈ (String.ofList (c :: s.toList)).toList,
          a ∉ specialChars := by
        rcases hs with hq | hs
        · exact .inl hq
        · refine hc.imp id fun hc => ?_
          rw [String.toList_ofList, List.forall_mem_cons]
          exact ⟨hc, hs⟩
      have htext : String.ofList (c :: s.toList) ++ t' = String.singleton c ++ (s ++ t') := by
        simp [← String.toList_inj]
      rw [consChar, if_pos rfl, fixed?_cons_text hboth hw, htext]
    · rw [consChar, if_neg hsame, fixed?_cons_text hsingle h]

theorem consChar_ne_nil (c : Char) (quoted : Bool) (w : Word) : consChar c quoted w ≠ [] := by
  unfold consChar
  split
  · split <;> exact List.cons_ne_nil _ _
  · exact List.cons_ne_nil _ _

theorem endsWord_eq_false {c : Char} (hc : c ∉ specialChars) : endsWord c = false := by
  have hall : ∀ c, endsWord c = true → c ∈ specialChars := by
    intro c h
    simp only [endsWord, isBlank, Bool.or_eq_true, beq_iff_eq, List.contains_eq_mem,
      decide_eq_true_eq, List.mem_cons, List.not_mem_nil, or_false] at h
    rcases h with (rfl | rfl) | rfl | rfl | rfl | rfl | rfl | rfl | rfl | rfl <;> decide
  exact Bool.eq_false_iff.mpr (mt (hall c) hc)

theorem readWord_stops {rest : List Char} (hrest : Stops rest) (fuel : Nat) :
    readWord (fuel + 1) rest = .ok ([], rest) := by
  cases rest with
  | nil => rfl
  | cons c rest =>
    have hc : endsWord c = true := by
      rcases hrest c rfl with rfl | rfl <;> decide
    unfold readWord
    exact if_pos hc

theorem readWord_consChar {c : Char} (hends : endsWord c = false)
    (hc : c ∉ ['\'', '"', '\\', '$', '\x60']) {fuel : Nat} {cs rest : List Char} {w : Word}
    (h : readWord fuel cs = .ok (w, rest)) :
    readWord (fuel + 1) (c :: cs) = .ok (consChar c false w, rest) := by
  simp only [List.mem_cons, List.not_mem_nil, or_false, not_or] at hc
  obtain ⟨hsingle, hdouble, hslash, hdollar, hback⟩ := hc
  unfold readWord
  rw [hends, if_neg Bool.false_ne_true, if_neg hsingle, if_neg hdouble, if_neg hslash,
    if_neg hdollar, if_neg hback, h]
  rfl

theorem not_mem_of_not_special {c : Char} (hc : c ∉ specialChars) {cs : List Char}
    (hcs : cs ⊆ specialChars) : c ∉ cs := fun h => hc (hcs h)

theorem readWord_escaped {c : Char} (hc : c ≠ '\n') {fuel : Nat} {cs rest : List Char} {w : Word}
    (h : readWord fuel cs = .ok (w, rest)) :
    readWord (fuel + 1) ('\\' :: c :: cs) = .ok (consChar c true w, rest) := by
  unfold readWord
  rw [if_neg (by decide), if_neg (by decide), if_neg (by decide), if_pos rfl]
  split
  · rename_i hnewline
    exact absurd (List.cons.inj hnewline).1 hc
  · rename_i hcons
    obtain ⟨rfl, rfl⟩ := List.cons.inj hcons
    rw [h]
    rfl
  · rename_i hnil
    exact absurd hnil (List.cons_ne_nil _ _)

theorem readSingleQuoted_append {inner : List Char} (h : '\'' ∉ inner) (rest : List Char) :
    readSingleQuoted (inner ++ '\'' :: rest) = .ok (.text (String.ofList inner) true, rest) := by
  have hall : ∀ c ∈ inner, decide (c ≠ '\'') = true := fun c hc =>
    decide_eq_true fun heq => h (heq ▸ hc)
  have htake : (inner ++ '\'' :: rest).takeWhile (· ≠ '\'') = inner := by
    rw [List.takeWhile_append_of_pos hall, List.takeWhile_cons_of_neg (by decide), List.append_nil]
  rw [readSingleQuoted, htake, List.drop_left]

theorem readWord_quoted {inner : List Char} (hinner : '\'' ∉ inner) {fuel : Nat}
    {cs rest : List Char} {w : Word} (h : readWord fuel cs = .ok (w, rest)) :
    readWord (fuel + 1) ('\'' :: (inner ++ '\'' :: cs)) =
      .ok (.text (String.ofList inner) true :: w, rest) := by
  unfold readWord
  rw [if_neg (by decide), if_pos rfl, readSingleQuoted_append hinner]
  simp only [bind, Except.bind, h]
  rfl

/-- What spells a word is read as this word, up to where the next blank ends it, and whatever
follows there. -/
theorem readWord_of_spells {raw word : List Char} (h : Spells raw word) :
    ∃ w : Word, w.fixed? = some (String.ofList word) ∧ (raw ≠ [] → w ≠ []) ∧
      ∀ rest, Stops rest → ∀ fuel, raw.length < fuel →
        readWord fuel (raw ++ rest) = .ok (w, rest) := by
  induction h with
  | nil =>
    refine ⟨[], rfl, fun h => absurd rfl h, fun rest hrest fuel hfuel => ?_⟩
    obtain ⟨fuel, rfl⟩ := Nat.exists_eq_add_one.mpr hfuel
    exact readWord_stops hrest fuel
  | @plain c raw word hc h ih =>
    obtain ⟨w, hfixed, -, hread⟩ := ih
    refine ⟨consChar c false w, ?_, fun _ => consChar_ne_nil c false w, fun rest hrest fuel hfuel => ?_⟩
    · rw [fixed?_consChar (.inr hc) hfixed]
      simp
    · obtain ⟨fuel, rfl⟩ := Nat.exists_eq_add_one.mpr (Nat.zero_lt_of_lt hfuel)
      exact readWord_consChar (endsWord_eq_false hc) (not_mem_of_not_special hc (by decide))
        (hread rest hrest fuel (Nat.lt_of_succ_lt_succ hfuel))
  | @escaped c raw word hc h ih =>
    obtain ⟨w, hfixed, -, hread⟩ := ih
    refine ⟨consChar c true w, ?_, fun _ => consChar_ne_nil c true w, fun rest hrest fuel hfuel => ?_⟩
    · rw [fixed?_consChar (.inl rfl) hfixed]
      simp
    · obtain ⟨fuel, rfl⟩ := Nat.exists_eq_add_one.mpr (Nat.zero_lt_of_lt hfuel)
      have hless : raw.length < fuel := by
        simp only [List.length_cons] at hfuel
        omega
      exact readWord_escaped hc (hread rest hrest _ hless)
  | @quoted inner raw word hinner h ih =>
    obtain ⟨w, hfixed, -, hread⟩ := ih
    refine ⟨.text (String.ofList inner) true :: w, ?_, fun _ => List.cons_ne_nil _ _,
      fun rest hrest fuel hfuel => ?_⟩
    · rw [fixed?_cons_text (.inl rfl) hfixed, String.ofList_append]
    · obtain ⟨fuel, rfl⟩ := Nat.exists_eq_add_one.mpr (Nat.zero_lt_of_lt hfuel)
      have hless : raw.length < fuel := by
        simp only [List.length_cons, List.length_append] at hfuel
        omega
      rw [List.cons_append, List.append_assoc, List.cons_append]
      exact readWord_quoted hinner (hread rest hrest _ hless)

end reading

section names

/-- A text that names a variable. -/
def IsName (name : List Char) : Prop :=
  name.head?.any isNameStart = true ∧ name.all isNameChar = true

instance (name : List Char) : Decidable (IsName name) :=
  inferInstanceAs (Decidable (_ ∧ _))

/-- The value of a variable between double quotes. -/
def quotedParameter (name : String) : Word := [.parameter name true, .text "" true]

variable {name rest : List Char}

theorem IsName.exists_cons (h : IsName name) : ∃ c cs, name = c :: cs ∧ isNameStart c = true := by
  cases name with
  | nil => exact absurd h.1 (by decide)
  | cons c cs => exact ⟨c, cs, rfl, h.1⟩

theorem not_special_of_isNameChar {c : Char} (h : isNameChar c = true) : c ∉ specialChars :=
  not_special_of_all (by decide) h

theorem isNameChar_of_isNameStart {c : Char} (h : isNameStart c = true) : isNameChar c = true := by
  simp only [isNameStart, Bool.or_eq_true] at h
  simp only [isNameChar, Text.isAlphanumeric, Bool.or_eq_true]
  rcases h with h | h
  · exact .inl (.inl h)
  · exact .inr h

theorem takeWhile_isNameChar (h : IsName name) {c : Char} (hc : isNameChar c = false) :
    (name ++ c :: rest).takeWhile isNameChar = name := by
  rw [List.takeWhile_append_of_pos (List.all_eq_true.mp h.2),
    List.takeWhile_cons_of_neg (by simp [hc]), List.append_nil]

theorem readDollar_name (h : IsName name) (quoted : Bool) :
    readDollar quoted (name ++ '"' :: rest) =
      .ok (.parameter (String.ofList name) quoted, '"' :: rest) := by
  have htake : (name ++ '"' :: rest).takeWhile isNameChar = name :=
    takeWhile_isNameChar h (by decide)
  have hdrop : (name ++ '"' :: rest).drop name.length = '"' :: rest := List.drop_left
  obtain ⟨c, cs, rfl, hc⟩ := h.exists_cons
  have hspecial : c ∉ ['(', '\x7b'] :=
    not_mem_of_not_special (not_special_of_isNameChar (isNameChar_of_isNameStart hc)) (by decide)
  simp only [List.mem_cons, List.not_mem_nil, or_false, not_or] at hspecial
  rw [List.cons_append] at htake hdrop ⊢
  unfold readDollar
  split
  · rename_i heq
    exact absurd (List.cons.inj heq).1 hspecial.1
  · rename_i heq
    exact absurd (List.cons.inj heq).1 hspecial.2
  · rename_i heq
    obtain ⟨rfl, rfl⟩ := List.cons.inj heq
    simp only [hc, htake, hdrop, if_true]
  · rename_i heq
    exact absurd heq (List.cons_ne_nil _ _)

theorem readDoubleQuoted_parameter (h : IsName name) (fuel : Nat) :
    readDoubleQuoted (fuel + 2) ('$' :: (name ++ '"' :: rest)) =
      .ok (quotedParameter (String.ofList name), rest) := by
  have hclose : readDoubleQuoted (fuel + 1) ('"' :: rest) = .ok ([.text "" true], rest) := by
    unfold readDoubleQuoted
    exact if_pos rfl
  conv => lhs; unfold readDoubleQuoted
  rw [if_neg (by decide), if_neg (by decide), if_pos rfl, readDollar_name h]
  simp only [bind, Except.bind, hclose]
  rfl

theorem readWord_quotedParameter (h : IsName name) (hrest : Stops rest) (fuel : Nat) :
    readWord (fuel + 2) ('"' :: '$' :: (name ++ '"' :: rest)) =
      .ok (quotedParameter (String.ofList name), rest) := by
  have hinner : readDoubleQuoted ((name ++ '"' :: rest).length + 2) ('$' :: (name ++ '"' :: rest)) =
      .ok (quotedParameter (String.ofList name), rest) := readDoubleQuoted_parameter h _
  conv => lhs; unfold readWord
  rw [if_neg (by decide), if_neg (by decide), if_pos rfl, List.length_cons, hinner]
  simp only [bind, Except.bind, readWord_stops hrest]
  rfl

theorem readWord_foldr {cs rest' : List Char} {w : Word} {fuel : Nat}
    (hcs : ∀ c ∈ cs, endsWord c = false ∧ c ∉ ['\'', '"', '\\', '$', '\x60'])
    (hread : readWord fuel rest' = .ok (w, rest)) :
    readWord (fuel + cs.length) (cs ++ rest') = .ok (cs.foldr (consChar · false) w, rest) := by
  induction cs with
  | nil => exact hread
  | cons c cs ih =>
    rw [List.forall_mem_cons] at hcs
    exact readWord_consChar hcs.1.1 hcs.1.2 (ih hcs.2)

theorem exists_foldr_consChar {cs : List Char} (hcs : cs ≠ []) {w : Word} {t : String}
    (h : w.fixed? = some t) :
    ∃ (s : List Char) (w' : Word) (t' : String),
      cs.foldr (consChar · false) w = .text (String.ofList (cs ++ s)) false :: w' ∧
        (∀ c ∈ s, c ∉ specialChars) ∧ w'.fixed? = some t' ∧ t = String.ofList s ++ t' := by
  induction cs with
  | nil => exact absurd rfl hcs
  | cons c cs ih =>
    rw [List.foldr_cons]
    -- the last character joins text without quotes at the head of the word, if there is any
    by_cases hlast : cs = []
    · subst hlast
      rw [List.foldr_nil]
      cases w with
      | nil => exact ⟨[], [], t, rfl, by simp, h, by simp⟩
      | cons piece w =>
        obtain ⟨s, quoted, t', rfl, hs, hw, rfl⟩ := fixed?_eq_some_cons h
        cases quoted with
        | true => exact ⟨[], .text s true :: w, s ++ t', rfl, by simp, h, by simp⟩
        | false => exact ⟨s.toList, w, t', rfl, by simpa using hs, hw, by simp⟩
    · obtain ⟨s, w', t', hfold, hs, hw', ht⟩ := ih hlast
      refine ⟨s, w', t', ?_, hs, hw', ht⟩
      rw [hfold, consChar, if_pos rfl, String.toList_ofList, List.cons_append]

theorem assignment?_text (h : IsName name) (s : List Char) (w : Word) :
    Statement.assignment? (.text (String.ofList (name ++ ['='] ++ s)) false :: w) =
      some (String.ofList name,
        (if s.isEmpty then [] else [.text (String.ofList s) false]) ++ w) := by
  have htake : (name ++ '=' :: s).takeWhile isNameChar = name := takeWhile_isNameChar h (by decide)
  have hdrop : (name ++ '=' :: s).drop name.length = '=' :: s := List.drop_left
  obtain ⟨c, cs, rfl, hc⟩ := h.exists_cons
  rw [List.append_assoc, List.singleton_append]
  simp only [Statement.assignment?, String.toList_ofList, htake, hdrop, hc, if_true]

/-- A name, an equals sign and what spells a word are read as an assignment of this word. -/
theorem readWord_assignment (h : IsName name) {raw value : List Char} (hraw : Spells raw value) :
    ∃ w v, Statement.assignment? w = some (String.ofList name, v) ∧
      v.fixed? = some (String.ofList value) ∧
        ∀ rest, Stops rest → ∀ fuel, name.length + raw.length + 1 < fuel →
          readWord fuel (name ++ '=' :: (raw ++ rest)) = .ok (w, rest) := by
  obtain ⟨w, hfixed, -, hread⟩ := readWord_of_spells hraw
  have hplain : ∀ c ∈ name ++ ['='], endsWord c = false ∧ c ∉ ['\'', '"', '\\', '$', '\x60'] := by
    intro c hc
    rcases List.mem_append.mp hc with hc | hc
    · have hspecial := not_special_of_isNameChar (List.all_eq_true.mp h.2 c hc)
      exact ⟨endsWord_eq_false hspecial, not_mem_of_not_special hspecial (by decide)⟩
    · rw [List.mem_singleton.mp hc]
      exact ⟨by decide, by decide⟩
  have hne : name ++ ['='] ≠ [] := by simp
  obtain ⟨s, w', t', hfold, hs, hw', ht⟩ := exists_foldr_consChar hne hfixed
  refine ⟨_, _, assignment?_text h s w', ?_, fun rest hrest fuel hfuel => ?_⟩
  · rw [ht]
    cases s with
    | nil => simpa using hw'
    | cons c s =>
      have htext : false = true ∨ ∀ a ∈ (String.ofList (c :: s)).toList, a ∉ specialChars :=
        .inr (by simpa using hs)
      exact fixed?_cons_text htext hw'
  · obtain ⟨k, rfl⟩ : ∃ k, fuel = k + (name ++ ['=']).length :=
      ⟨fuel - (name ++ ['=']).length, by
        simp only [List.length_append, List.length_singleton]
        omega⟩
    have hless : raw.length < k := by
      simp only [List.length_append, List.length_singleton] at hfuel
      omega
    have hword := readWord_foldr hplain (hread rest hrest _ hless)
    rwa [List.append_assoc, List.singleton_append, hfold] at hword

end names

section expansion

theorem expand_cons_text (fuel : Nat) (m : Machine) (s : String) (quoted : Bool) (w : Word)
    (fields : List String) (current : Option String) :
    Machine.expand (fuel + 1) m (.text s quoted :: w) (fields, current) =
      Machine.expand fuel m w (fields, some (current.getD "" ++ s)) := by
  rw [Machine.expand]

theorem expand_fixed_from {w : Word} {t : String} (h : w.fixed? = some t) {fuel : Nat}
    (hfuel : w.length < fuel) (m : Machine) (fields : List String) (s : String) :
    Machine.expand fuel m w (fields, some s) = (m, fields ++ [s ++ t]) := by
  induction w generalizing fuel s t with
  | nil =>
    obtain ⟨fuel, rfl⟩ := Nat.exists_eq_add_one.mpr hfuel
    rw [Machine.expand, ← Option.some.inj h, String.append_empty]
    rfl
  | cons piece w ih =>
    obtain ⟨fuel, rfl⟩ := Nat.exists_eq_add_one.mpr (Nat.zero_lt_of_lt hfuel)
    obtain ⟨s', quoted, t', rfl, -, hw, rfl⟩ := fixed?_eq_some_cons h
    rw [expand_cons_text, ih hw (Nat.lt_of_succ_lt_succ hfuel), Option.getD_some,
      String.append_assoc]

/-- On every machine, a word that stands for itself is one field, and nothing else happens. -/
theorem expand_of_fixed {w : Word} {t : String} (h : w.fixed? = some t) (hw : w ≠ []) {fuel : Nat}
    (hfuel : w.length < fuel) (m : Machine) : Machine.expand fuel m w ([], none) = (m, [t]) := by
  cases w with
  | nil => exact absurd rfl hw
  | cons piece w =>
    obtain ⟨fuel, rfl⟩ := Nat.exists_eq_add_one.mpr (Nat.zero_lt_of_lt hfuel)
    obtain ⟨s, quoted, t', rfl, -, hfixed, rfl⟩ := fixed?_eq_some_cons h
    rw [expand_cons_text, expand_fixed_from hfixed (Nat.lt_of_succ_lt_succ hfuel), Option.getD_none,
      String.empty_append, List.nil_append]

end expansion

end TrafficWarden.Shell
