import TrafficWarden.Proofs.AcceptableRules
import TrafficWarden.Proofs.JsonForms
import TrafficWarden.Proofs.RuleWords
import TrafficWarden.Records
import Mathlib.Data.List.Induction

/-!
# Rules are told apart by what is printed of them

A rule is read back from its words, from its text between the spaces, and from its record. So no two
compiled rules have the same words, the same text or the same record. The flags are printed in one
order, whatever the order in which they were set or merged.
-/

namespace TrafficWarden

namespace Rule

section order

variable {items items' : List (Flag × FlagValue)}

theorem ofList_append_singleton (items : List (Flag × FlagValue)) (f : Flag) (v : FlagValue) :
    ofList (items ++ [(f, v)]) = (ofList items).set f v := by
  rw [ofList, List.foldl_append]
  rfl

/-- Among values for different flags, each flag has its own. -/
theorem get_ofList_iff (h : (items.map (·.1)).Nodup) {f : Flag} {v : FlagValue} :
    (ofList items).get f = some v ↔ (f, v) ∈ items := by
  induction items using List.reverseRecOn with
  | nil => simp [ofList]
  | append_singleton items item ih =>
    obtain ⟨g, w⟩ := item
    rw [List.map_append, List.map_singleton, List.nodup_append] at h
    obtain ⟨hitems, -, hnot⟩ := h
    rw [ofList_append_singleton, get_set, List.mem_append, List.mem_singleton, Prod.mk.injEq]
    by_cases hf : f = g
    · subst hf
      have habsent : (f, v) ∉ items := fun hmem =>
        hnot f (List.mem_map_of_mem hmem) f (List.mem_singleton_self f) rfl
      rw [if_pos rfl, Option.some.injEq]
      constructor
      · intro hv
        exact .inr ⟨rfl, hv.symm⟩
      · rintro (hmem | ⟨-, hv⟩)
        · exact absurd hmem habsent
        · exact hv.symm
    · simp only [hf, if_false, ih hitems, false_and, or_false]

theorem nodup_map_fst_toList (r : Rule) : (r.toList.map (·.1)).Nodup := by
  have hincreasing := r.toList_increasing
  rw [List.Nodup, List.pairwise_map]
  exact hincreasing.imp fun hrank heq => absurd (heq ▸ hrank) (Nat.lt_irrefl _)

theorem ofList_toList (r : Rule) : ofList r.toList = r := by
  apply ext_get
  intro f
  apply Option.ext
  intro v
  rw [get_ofList_iff r.nodup_map_fst_toList, mem_toList]

/-- The order in which different flags are set makes no difference. -/
theorem ofList_eq_of_perm (h : items.Perm items') (hnodup : (items.map (·.1)).Nodup) :
    ofList items = ofList items' := by
  have hnodup' : (items'.map (·.1)).Nodup := (h.map _).nodup hnodup
  apply ext_get
  intro f
  apply Option.ext
  intro v
  rw [get_ofList_iff hnodup, get_ofList_iff hnodup', h.mem_iff]

theorem contains_ofList (items : List (Flag × FlagValue)) (f : Flag) :
    (ofList items).contains f = decide (f ∈ items.map (·.1)) := by
  induction items using List.reverseRecOn with
  | nil => rfl
  | append_singleton items item ih =>
    obtain ⟨g, w⟩ := item
    rw [ofList_append_singleton, contains, get_set]
    by_cases hf : f = g
    · simp [hf]
    · rw [if_neg hf, ← contains, ih]
      simp [hf]

/-- The flags are printed in the order of the packet filter. -/
theorem map_fst_toList (r : Rule) : r.toList.map (·.1) = Flag.all.filter r.contains := by
  have hflags : ∀ flags : List Flag,
      (flags.filterMap fun f => (r.get f).map (f, ·)).map (·.1) = flags.filter r.contains := by
    intro flags
    induction flags with
    | nil => rfl
    | cons f flags ih =>
      cases hf : r.get f with
      | none =>
        have hnot : r.contains f = false := by rw [contains, hf]; rfl
        simpa [hf, hnot] using ih
      | some v =>
        have hset : r.contains f = true := by rw [contains, hf]; rfl
        simpa [hf, hset] using ih
  exact hflags Flag.all

theorem merge_comm_of_apart {r s : Rule} (h : r.Apart s) : r.merge s = s.merge r := by
  apply ext_get
  intro f
  rw [get_merge, get_merge]
  rcases h f with hr | hs
  · rw [hr, Option.or_none, Option.none_or]
  · rw [hs, Option.or_none, Option.none_or]

end order

end Rule

/-- A text that is one word and looks like no flag. -/
def IsArgument (s : String) : Prop :=
  s ≠ "" ∧ ' ' ∉ s.toList ∧ ∀ c, s.toList.head? = some c → c ≠ '-'

/-- A value of the kind that belongs to a flag. A text among them is one word. -/
structure Flag.Prints (f : Flag) (v : FlagValue) : Prop where
  carries : f.Carries v
  argument : ∀ s, v = .text s → IsArgument s

namespace Flag

theorem Prints.swapped {f : Flag} {v : FlagValue} (h : f.Prints v) : f.swapped.Prints v :=
  ⟨h.carries.swapped, h.argument⟩

/-- The words of a flag and of its value are no empty words, and have no space in them. -/
theorem Prints.word {f : Flag} {v : FlagValue} (h : f.Prints v) {word : String}
    (hword : word ∈ f.words ++ v.words) : word ≠ "" ∧ ' ' ∉ word.toList := by
  have hflag : ∀ f : Flag, ∀ word ∈ f.words, word ≠ "" ∧ ' ' ∉ word.toList := by
    intro f
    cases f <;> decide
  have hport : ∀ n : UInt16, toString n.toNat ≠ "" ∧ ' ' ∉ (toString n.toNat).toList := by
    intro n
    rw [Nat.toString_eq_repr]
    constructor
    · exact Nat.repr_ne_empty
    · intro hspace
      rw [Nat.repr, String.toList_ofList] at hspace
      exact absurd (Nat.isDigit_of_mem_toDigits (by decide) (by decide) hspace) (by decide)
  have hvalue : word ∈ v.words → word ≠ "" ∧ ' ' ∉ word.toList := by
    intro hmem
    have htext : ∀ s, v = .text s → s ≠ "" ∧ ' ' ∉ s.toList := fun s hs =>
      ⟨(h.argument s hs).1, (h.argument s hs).2.1⟩
    cases h.carries with
    | macExtension | multiportExtension => exact absurd hmem List.not_mem_nil
    | protocol t =>
      rw [List.mem_singleton.mp hmem]
      cases t <;> decide
    | macSource s | sourceIp s | destinationIp s =>
      rw [List.mem_singleton.mp hmem]
      exact htext s rfl
    | sourcePort n | destinationPort n =>
      rw [List.mem_singleton.mp hmem]
      exact hport n
  exact (List.mem_append.mp hword).elim (hflag f word) hvalue

/-- The flag with a token. -/
def ofToken? (token : String) : Option Flag := all.find? (·.token = token)

theorem ofToken?_token (f : Flag) : ofToken? f.token = some f := by
  cases f <;> decide

/-- The value that an argument stands for, by the kind that belongs to the flag. -/
def readArgument (f : Flag) (argument : String) : Option FlagValue :=
  match f with
  | .macExtension | .multiportExtension => if argument = "" then some .marker else none
  | .protocol => (Transport.ofName? argument).map .transport
  | .macSource | .sourceIp | .destinationIp => some (.text argument)
  | .sourcePort | .destinationPort => (readPort argument).map .port

theorem Carries.readArgument {f : Flag} {v : FlagValue} (h : f.Carries v) :
    f.readArgument v.argument = some v := by
  cases h <;> simp [Flag.readArgument, FlagValue.argument]

end Flag

namespace Rule

/-- Reads a rule from words. Empty words are passed over. -/
def ofWords? (words : List String) : Option Rule :=
  match readFlags (words.filter (· ≠ "")) with
  | (flags, []) => some (ofList flags)
  | _ => none

/-- The pieces of a text between its spaces. -/
def pieces (text : String) : List String := (Text.splitAt ' ' text.toList).map String.ofList

/-- Reads one member of a record. -/
def ofMember? (m : String × Json) : Option (Flag × FlagValue) := do
  let f ← Flag.ofToken? m.1
  let argument ← m.2.asString?
  let v ← f.readArgument argument
  return (f, v)

/-- Reads a rule from its record. -/
def ofJson? : Json → Option Rule
  | .object members => (members.mapM ofMember?).map ofList
  | _ => none

section reading

variable {r : Rule}

theorem word_of_mem_words (h : r.Every Flag.Prints) :
    ∀ word ∈ r.words, word ≠ "" ∧ ' ' ∉ word.toList := by
  intro word hword
  obtain ⟨⟨f, v⟩, hitem, hword⟩ := List.mem_flatMap.mp hword
  exact (h f v (mem_toList.mp hitem)).word hword

/-- A rule is read back from its words, even with empty words among them. -/
theorem ofWords?_of_filter (h : r.Every Flag.Carries) {words : List String}
    (hwords : words.filter (· ≠ "") = r.words) : ofWords? words = some r := by
  have hnil : readFlags [] = ([], []) := by simp [readFlags]
  have hread := readFlags_words h hnil
  rw [List.append_nil] at hread
  rw [ofWords?, hwords, hread]
  exact congrArg some r.ofList_toList

theorem ofWords?_words (h : r.Every Flag.Prints) : ofWords? r.words = some r := by
  apply ofWords?_of_filter (h.mono fun _ _ => Flag.Prints.carries)
  apply List.filter_eq_self.mpr
  intro word hword
  exact decide_eq_true (word_of_mem_words h word hword).1

/-- The pieces of the text are the words, and one empty piece where there is no word. -/
theorem filter_pieces_text (h : r.Every Flag.Prints) :
    (pieces r.text).filter (· ≠ "") = r.words := by
  have hwords := word_of_mem_words h
  by_cases hnil : r.words = []
  · rw [pieces, text, hnil]
    rfl
  · have hsplit : Text.splitAt ' ' r.text.toList = r.words.map String.toList := by
      rw [text, String.toList_intercalate]
      apply Text.splitAt_intercalate ' ' (by simpa using hnil)
      intro piece hpiece
      obtain ⟨word, hword, rfl⟩ := List.mem_map.mp hpiece
      exact (hwords word hword).2
    have hpieces : pieces r.text = r.words := by
      simp [pieces, hsplit, Function.comp_def]
    rw [hpieces]
    apply List.filter_eq_self.mpr
    intro word hword
    exact decide_eq_true (hwords word hword).1

theorem ofWords?_pieces_text (h : r.Every Flag.Prints) : ofWords? (pieces r.text) = some r :=
  ofWords?_of_filter (h.mono fun _ _ => Flag.Prints.carries) (filter_pieces_text h)

theorem ofMember?_of_carries {f : Flag} {v : FlagValue} (h : f.Carries v) :
    ofMember? (f.token, .string v.argument) = some (f, v) := by
  simp [ofMember?, Flag.ofToken?_token, Json.asString?, h.readArgument]

/-- A rule is read back from its record. -/
theorem ofJson?_toJson (h : r.Every Flag.Carries) : ofJson? r.toJson = some r := by
  have hitems : ∀ items : List (Flag × FlagValue), (∀ item ∈ items, item.1.Carries item.2) →
      (items.map fun item => (item.1.token, Json.string item.2.argument)).mapM ofMember? =
        some items := by
    intro items
    induction items with
    | nil => exact fun _ => rfl
    | cons item items ih =>
      intro hall
      obtain ⟨hitem, htail⟩ := List.forall_mem_cons.mp hall
      rw [List.map_cons, List.mapM_cons, ofMember?_of_carries hitem, ih htail]
      rfl
  have hall := hitems r.toList fun item hitem => h item.1 item.2 (mem_toList.mp hitem)
  have hback : ofJson? r.toJson = (some r.toList).map ofList := congrArg (Option.map ofList) hall
  rw [hback, Option.map_some, ofList_toList]

theorem faithful_toJson (r : Rule) : r.toJson.Faithful := by
  apply Json.Faithful.object
  intro m hm
  obtain ⟨⟨f, v⟩, -, rfl⟩ := List.mem_map.mp hm
  exact .string v.argument

/-- A rule is read back from whatever is printed of it. -/
structure ReadBack (r : Rule) : Prop where
  words : ofWords? r.words = some r
  text : ofWords? (pieces r.text) = some r
  record : ofJson? r.toJson = some r
  recordText : (Json.read? r.toJson.compact).bind ofJson? = some r

theorem readBack (h : r.Every Flag.Prints) : r.ReadBack where
  words := ofWords?_words h
  text := ofWords?_pieces_text h
  record := ofJson?_toJson (h.mono fun _ _ => Flag.Prints.carries)
  recordText := by
    rw [Json.read?_compact r.faithful_toJson, Option.bind_some]
    exact ofJson?_toJson (h.mono fun _ _ => Flag.Prints.carries)

/-- What is printed of two rules is the same only if the rules are. -/
theorem ReadBack.injective {s : Rule} (hr : r.ReadBack) (hs : s.ReadBack)
    (h : r.words = s.words ∨ r.text = s.text ∨ r.toJson = s.toJson ∨
      r.toJson.compact = s.toJson.compact) : r = s := by
  apply Option.some.inj
  rcases h with h | h | h | h
  · rw [← hr.words, h, hs.words]
  · rw [← hr.text, h, hs.text]
  · rw [← hr.record, h, hs.record]
  · rw [← hr.recordText, h, hs.recordText]

end reading

end Rule

section compiled

theorem MacAddress.IsText.ne_empty {s : String} (h : IsText s) : s ≠ "" := by
  rintro rfl
  obtain ⟨pairs, hlength, hpairs, htext⟩ := h
  obtain ⟨pair, hpair⟩ := List.exists_mem_of_length_pos (l := pairs) (by omega)
  have hne : pair ≠ [] := List.ne_nil_of_length_pos (by rw [(hpairs pair hpair).1]; omega)
  exact intercalate_ne_nil hpair hne htext.symm

theorem Subnet.IsList.ne_empty {s : String} (h : IsList s) : s ≠ "" := by
  obtain ⟨subnets, hne, -, rfl⟩ := h
  intro hempty
  have htext := congrArg String.toList hempty
  rw [String.toList_intercalate] at htext
  obtain ⟨first, rest, rfl⟩ := List.exists_cons_of_ne_nil hne
  have hne : first.text.toList ≠ [] := by simp [Subnet.text_toList]
  exact intercalate_ne_nil (by simp) hne htext

/-- The values that the packet filter takes are printed as one word. -/
theorem Flag.Suits.prints {f : Flag} {v : FlagValue} (h : f.Suits v) : f.Prints v where
  carries := by cases h <;> constructor
  argument s hs := by
    subst hs
    have hword : s ∈ (FlagValue.text s).words := List.mem_singleton_self s
    have hdash := h.dash_not_mem hword
    refine ⟨?_, h.space_not_mem hword, ?_⟩
    · cases h with
      | macSource h => exact h.ne_empty
      | sourceIp h | destinationIp h => exact h.ne_empty
    · rintro _ hhead rfl
      exact hdash (List.mem_of_mem_head? hhead)

/-- The rules that bags compile to, and the reverses of such rules. -/
inductive Rule.IsCompiled : Rule → Prop
  | rule {bag : ParameterBag} {priority : Option Priority} {download : Option UInt32} {r : Rule}
      (h : r ∈ (RuleSet.compile bag priority download).rules) : IsCompiled r
  | reversed {r : Rule} (h : IsCompiled r) : IsCompiled r.reversed

theorem Rule.IsCompiled.prints {r : Rule} (h : r.IsCompiled) : r.Every Flag.Prints := by
  induction h with
  | rule h =>
    have hvalues := (RuleSet.wellFormed_compile _ _ _ _ h).values
    exact hvalues.mono fun _ _ => Flag.Suits.prints
  | reversed _ ih => exact ih.reversed fun _ _ => Flag.Prints.swapped

end compiled

namespace Rule

/-- Every rule whose flags have values of their own kind is read back from its words, from its text
and from its record, and so is its reverse. Compiled rules and their reverses are such rules, so
no two of them are printed alike. The flags of a rule are printed in the order of the packet filter:
those that were set, in whatever order, or those that either of two merged rules has. -/
theorem printed_rules_told_apart :
    (∀ r : Rule, r.Every Flag.Prints → r.ReadBack ∧ r.reversed.ReadBack) ∧
      (∀ r : Rule, r.IsCompiled → r.Every Flag.Prints ∧ r.ReadBack) ∧
      (∀ r s : Rule, r.IsCompiled → s.IsCompiled → r ≠ s →
        r.words ≠ s.words ∧ r.text ≠ s.text ∧ r.toJson ≠ s.toJson ∧
          r.toJson.compact ≠ s.toJson.compact) ∧
      (∀ items : List (Flag × FlagValue),
        (ofList items).toList.map (·.1) = Flag.all.filter (· ∈ items.map (·.1))) ∧
      (∀ items items' : List (Flag × FlagValue), items.Perm items' → (items.map (·.1)).Nodup →
        (ofList items).words = (ofList items').words) ∧
      (∀ r s : Rule, (r.merge s).toList.map (·.1) =
        Flag.all.filter fun f => r.contains f || s.contains f) ∧
      ∀ r s : Rule, r.Apart s → (r.merge s).words = (s.merge r).words := by
  have hback : ∀ r : Rule, r.IsCompiled → r.ReadBack := fun r h => readBack h.prints
  refine ⟨?_, ?_, ?_, ?_, ?_, ?_, ?_⟩
  · intro r h
    exact ⟨readBack h, readBack (h.reversed fun _ _ => Flag.Prints.swapped)⟩
  · intro r h
    exact ⟨h.prints, hback r h⟩
  · intro r s hr hs hne
    have hdiffer := fun h => hne ((hback r hr).injective (hback s hs) h)
    exact ⟨fun h => hdiffer (.inl h), fun h => hdiffer (.inr (.inl h)),
      fun h => hdiffer (.inr (.inr (.inl h))), fun h => hdiffer (.inr (.inr (.inr h)))⟩
  · intro items
    rw [map_fst_toList]
    exact List.filter_congr fun f _ => contains_ofList items f
  · intro items items' hperm hnodup
    rw [ofList_eq_of_perm hperm hnodup]
  · intro r s
    rw [map_fst_toList]
    exact List.filter_congr fun f _ => contains_merge r s f
  · intro r s h
    rw [merge_comm_of_apart h]

open RuleSet (printerBag printerReply)

theorem printed_rules_told_apart_of_reply :
    let r := printerReply
    let items := r.toList
    r.IsCompiled ∧ r ≠ r.reversed ∧ r.ReadBack ∧ r.reversed.ReadBack ∧
      r.text ≠ r.reversed.text ∧ items.Perm items.reverse ∧ (items.map (·.1)).Nodup ∧
      (ofList items).words = (ofList items.reverse).words ∧
      (∅ : Rule).Apart r ∧ (merge ∅ r).words = (r.merge ∅).words := by
  intro r items
  have hcompiled : r.IsCompiled := by
    apply @IsCompiled.rule printerBag none (some 512)
    decide +kernel
  have hne : r ≠ r.reversed := by decide +kernel
  have hperm : items.Perm items.reverse := (List.reverse_perm items).symm
  have hnodup : (items.map (·.1)).Nodup := r.nodup_map_fst_toList
  have hapart : (∅ : Rule).Apart r := fun _ => .inl rfl
  obtain ⟨hread, hprints, hdiffer, -, horder, -, hmerge⟩ := printed_rules_told_apart
  have hback := hread r (hprints r hcompiled).1
  have htexts := hdiffer r r.reversed hcompiled (.reversed hcompiled) hne
  exact ⟨hcompiled, hne, hback.1, hback.2, htexts.2.1, hperm, hnodup,
    horder items items.reverse hperm hnodup, hapart, hmerge ∅ r hapart⟩

end Rule

end TrafficWarden
