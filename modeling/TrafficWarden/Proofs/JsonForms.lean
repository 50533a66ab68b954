import TrafficWarden.Proofs.JsonTexts

/-!
# Forms of JSON values

The compact form and the indented form of a value are two of its texts, so a value is read back from
either.
-/

namespace TrafficWarden.Json

/-- The values that their texts denote: no number in them is kept as it was written, none is too
large to be read as an integer, and nothing is garbled. -/
inductive Faithful : Json → Prop
  | null : Faithful .null
  | bool (b : Bool) : Faithful (.bool b)
  | integer {n : Int} (h : FitsWord n) : Faithful (.integer n)
  | string (s : String) : Faithful (.string s)
  | array {items} (h : ∀ item ∈ items, Faithful item) : Faithful (.array items)
  | object {members} (h : ∀ m ∈ members, Faithful m.2) : Faithful (.object members)

@[simp] theorem faithful_string (s : String) : Faithful (.string s) := .string s

@[simp] theorem faithful_bool (b : Bool) : Faithful (.bool b) := .bool b

@[simp] theorem faithful_integer_iff {n : Int} : Faithful (.integer n) ↔ FitsWord n :=
  ⟨fun | .integer h => h, .integer⟩

@[simp] theorem faithful_array_iff {items : List Json} :
    Faithful (.array items) ↔ ∀ item ∈ items, Faithful item :=
  ⟨fun | .array h => h, .array⟩

@[simp] theorem faithful_object_iff {members : List (String × Json)} :
    Faithful (.object members) ↔ ∀ m ∈ members, Faithful m.2 :=
  ⟨fun | .object h => h, .object⟩

theorem faithful_ofOption {α : Type} {f : α → Json} {o : Option α}
    (h : ∀ a ∈ o, Faithful (f a)) : Faithful (ofOption f o) := by
  cases o with
  | none => exact .null
  | some a => exact h a rfl

theorem faithful_text (o : Option String) : Faithful (ofOption .string o) :=
  faithful_ofOption fun s _ => .string s

section compact

variable {items : List Json} {members : List (String × Json)}

theorem spells_compactItems (hne : items ≠ [])
    (h : ∀ item ∈ items, Spells (.value item) item.compact.toList) :
    Spells (.items items) (compactItems items).toList := by
  induction items with
  | nil => exact absurd rfl hne
  | cons item items ih =>
    obtain ⟨hitem, htail⟩ := List.forall_mem_cons.mp h
    cases items with
    | nil => exact .lastItem hitem
    | cons next items =>
      have hrest := ih (List.cons_ne_nil next items) htail
      simpa [compactItems] using Spells.item isGap_nil isGap_nil hitem hrest

theorem spells_compactMembers (hne : members ≠ [])
    (h : ∀ m ∈ members, Spells (.value m.2) m.2.compact.toList) :
    Spells (.members members) (compactMembers members).toList := by
  induction members with
  | nil => exact absurd rfl hne
  | cons m members ih =>
    obtain ⟨name, value⟩ := m
    obtain ⟨hvalue, htail⟩ := List.forall_mem_cons.mp h
    cases members with
    | nil => simpa [compactMembers] using Spells.lastMember name isGap_nil isGap_nil hvalue
    | cons next members =>
      have hrest := ih (List.cons_ne_nil next members) htail
      simpa [compactMembers] using
        Spells.member name isGap_nil isGap_nil isGap_nil isGap_nil hvalue hrest

theorem Faithful.spells_compact {j : Json} (h : j.Faithful) :
    Spells (.value j) j.compact.toList := by
  induction h with
  | null => exact .null
  | bool b => exact .bool b
  | integer hn => exact .integer hn
  | string s => exact .string s
  | @array items _ ih =>
    by_cases hne : items = []
    · subst hne
      exact .emptyArray
    · simpa [compact] using Spells.array isGap_nil isGap_nil (spells_compactItems hne ih)
  | @object members _ ih =>
    by_cases hne : members = []
    · subst hne
      exact .emptyObject
    · simpa [compact] using Spells.object isGap_nil isGap_nil (spells_compactMembers hne ih)

end compact

section indented

variable {depth : Nat} {items : List Json} {members : List (String × Json)}

/-- A line break with the indentation of the next line. -/
theorem isGap_break (depth : Nat) : IsGap ('\n' :: (indentation depth).toList) := by
  intro c hc
  rcases List.mem_cons.mp hc with rfl | hc
  · rfl
  · rw [indentation, String.toList_ofList] at hc
    rw [List.eq_of_mem_replicate hc]
    rfl

theorem isGap_space : IsGap [' '] := by simp [IsGap, isSpace]

theorem exists_spells_indentedItems (hne : items ≠ [])
    (h : ∀ item ∈ items, Spells (.value item) (indentedAt depth item).toList) :
    ∃ cs, (indentedItems depth items).toList = (indentation depth).toList ++ cs ∧
      Spells (.items items) cs := by
  induction items with
  | nil => exact absurd rfl hne
  | cons item items ih =>
    obtain ⟨hitem, htail⟩ := List.forall_mem_cons.mp h
    cases items with
    | nil => exact ⟨_, by simp [indentedItems], .lastItem hitem⟩
    | cons next items =>
      obtain ⟨cs, hcs, hrest⟩ := ih (List.cons_ne_nil next items) htail
      refine ⟨_, ?_, Spells.item isGap_nil (isGap_break depth) hitem hrest⟩
      simp [indentedItems, hcs]

theorem exists_spells_indentedMembers (hne : members ≠ [])
    (h : ∀ m ∈ members, Spells (.value m.2) (indentedAt depth m.2).toList) :
    ∃ cs, (indentedMembers depth members).toList = (indentation depth).toList ++ cs ∧
      Spells (.members members) cs := by
  induction members with
  | nil => exact absurd rfl hne
  | cons m members ih =>
    obtain ⟨name, value⟩ := m
    obtain ⟨hvalue, htail⟩ := List.forall_mem_cons.mp h
    cases members with
    | nil =>
      refine ⟨_, ?_, Spells.lastMember name isGap_nil isGap_space hvalue⟩
      simp [indentedMembers]
    | cons next members =>
      obtain ⟨cs, hcs, hrest⟩ := ih (List.cons_ne_nil next members) htail
      refine ⟨_, ?_, Spells.member name isGap_nil isGap_space isGap_nil (isGap_break depth)
        hvalue hrest⟩
      simp [indentedMembers, hcs]

theorem Faithful.spells_indentedAt {j : Json} (h : j.Faithful) (depth : Nat) :
    Spells (.value j) (indentedAt depth j).toList := by
  induction h generalizing depth with
  | null => exact .null
  | bool b => exact .bool b
  | integer hn => exact .integer hn
  | string s => exact .string s
  | @array items _ ih =>
    by_cases hne : items = []
    · subst hne
      rw [indentedAt]
      exact .emptyArray
    · obtain ⟨cs, hcs, hitems⟩ :=
        exists_spells_indentedItems hne fun item hitem => ih item hitem (depth + 1)
      have htext := Spells.array (isGap_break (depth + 1)) (isGap_break depth) hitems
      rw [indentedAt]
      · simpa [hcs] using htext
      · exact hne
  | @object members _ ih =>
    by_cases hne : members = []
    · subst hne
      rw [indentedAt]
      exact .emptyObject
    · obtain ⟨cs, hcs, hmembers⟩ :=
        exists_spells_indentedMembers hne fun m hm => ih m hm (depth + 1)
      have htext := Spells.object (isGap_break (depth + 1)) (isGap_break depth) hmembers
      rw [indentedAt]
      · simpa [hcs] using htext
      · exact hne

end indented

variable {j : Json}

/-- The compact form may have a line break after it, and so may the indented form. -/
theorem read?_compact_append (h : j.Faithful) {after : String} (ha : IsGap after.toList) :
    read? (j.compact ++ after) = some j :=
  read?_of_spells isGap_nil ha h.spells_compact (by simp)

theorem read?_compact (h : j.Faithful) : read? j.compact = some j := by
  have hread : read? (j.compact ++ "") = some j := read?_compact_append h isGap_nil
  rwa [String.append_empty] at hread

theorem read?_indented_append (h : j.Faithful) {after : String} (ha : IsGap after.toList) :
    read? (j.indented ++ after) = some j :=
  read?_of_spells isGap_nil ha (h.spells_indentedAt 0) (by simp [indented])

theorem read?_indented (h : j.Faithful) : read? j.indented = some j := by
  have hread : read? (j.indented ++ "") = some j := read?_indented_append h isGap_nil
  rwa [String.append_empty] at hread

end TrafficWarden.Json
