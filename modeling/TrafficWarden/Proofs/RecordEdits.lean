import TrafficWarden.Catalog.Json
import TrafficWarden.Proofs.DocumentFields

/-!
# Records that were edited

Of the members of a record some may be left out, the values of others may be written in another way,
and members that the record does not know may be added. The fields that are read from it are then
those of the record, or are not there.
-/

namespace TrafficWarden

namespace Json

theorem toNodes_eq_map (items : List Json) : toNodes items = items.map toNode := by
  induction items with
  | nil => rfl
  | cons item items ih => rw [toNodes, ih, List.map_cons]

theorem toEntries_eq_map (members : List (String × Json)) :
    toEntries members = members.map fun m => (m.1, m.2.toNode) := by
  induction members with
  | nil => rfl
  | cons m members ih => rw [toEntries, ih, List.map_cons]

variable {known : List String} {spare : String × Json → Prop}
variable {changes : String → Json → Json → Prop}
variable {members edited : List (String × Json)}

/-- The members of a record and what they are edited to: spare ones may be left out, the values of
others changed, and members with names that are not known may be added anywhere. -/
inductive Edits (known : List String) (spare : String × Json → Prop)
    (changes : String → Json → Json → Prop) :
    List (String × Json) → List (String × Json) → Prop
  | done : Edits known spare changes [] []
  | keep {name v w members edited} (hv : changes name v w)
      (h : Edits known spare changes members edited) :
      Edits known spare changes ((name, v) :: members) ((name, w) :: edited)
  | leaveOut {m members edited} (hm : spare m) (h : Edits known spare changes members edited) :
      Edits known spare changes (m :: members) edited
  | add {m members edited} (hm : m.1 ∉ known) (h : Edits known spare changes members edited) :
      Edits known spare changes members (m :: edited)

namespace Edits

theorem refl (h : ∀ m ∈ members, changes m.1 m.2 m.2) :
    Edits known spare changes members members := by
  induction members with
  | nil => exact .done
  | cons m members ih =>
    obtain ⟨hm, hmembers⟩ := List.forall_mem_cons.mp h
    exact .keep hm (ih hmembers)

/-- No known name is added. -/
theorem known_sublist (h : Edits known spare changes members edited) :
    ((edited.map (·.1)).filter known.contains).Sublist (members.map (·.1)) := by
  induction h with
  | done => exact List.Sublist.slnil
  | @keep name v w members edited _ _ ih =>
    rw [List.map_cons, List.map_cons, List.filter_cons]
    split
    · exact ih.cons_cons name
    · exact ih.cons name
  | @leaveOut m _ _ _ _ ih => exact ih.cons m.1
  | @add m _ _ hm _ ih =>
    rw [List.map_cons, List.filter_cons, if_neg (by simpa using hm)]
    exact ih

/-- A known name that no member has is nowhere in the edited record. -/
theorem not_mem_of_not_mem (h : Edits known spare changes members edited) {name : String}
    (hknown : name ∈ known) (hname : name ∉ members.map (·.1)) : name ∉ edited.map (·.1) := by
  intro hmem
  apply hname
  apply h.known_sublist.subset
  exact List.mem_filter.mpr ⟨hmem, by simpa using hknown⟩

/-- A member keeps its place as the first with its name, or it is spare and there is none. -/
theorem find?_of_mem (h : Edits known spare changes members edited)
    (hnodup : (members.map (·.1)).Nodup) {m : String × Json} (hm : m ∈ members)
    (hknown : m.1 ∈ known) :
    (∃ w, changes m.1 m.2 w ∧ edited.find? (·.1 = m.1) = some (m.1, w)) ∨
      (spare m ∧ edited.find? (·.1 = m.1) = none) := by
  induction h with
  | done => exact absurd hm List.not_mem_nil
  | @keep name v w members edited hv h ih =>
    rw [List.map_cons, List.nodup_cons] at hnodup
    rcases List.mem_cons.mp hm with rfl | hm
    · exact .inl ⟨w, hv, by simp⟩
    · have hne : name ≠ m.1 := fun heq =>
        hnodup.1 (List.mem_map.mpr ⟨m, hm, heq.symm⟩)
      simpa [hne] using ih hnodup.2 hm
  | @leaveOut other members edited hother h ih =>
    rw [List.map_cons, List.nodup_cons] at hnodup
    rcases List.mem_cons.mp hm with rfl | hm
    · refine .inr ⟨hother, List.find?_eq_none.mpr ?_⟩
      intro e he heq
      have hnot := h.not_mem_of_not_mem hknown hnodup.1
      exact hnot (List.mem_map.mpr ⟨e, he, by simpa using heq⟩)
    · exact ih hnodup.2 hm
  | @add other members edited hother h ih =>
    have hne : other.1 ≠ m.1 := fun heq => hother (heq ▸ hknown)
    simpa [hne] using ih hnodup hm

end Edits

end Json

namespace Fields

variable {spare : String × Json → Prop} {changes : String → Json → Json → Prop}

/-- The field of a member has one of the values it may change to, or the member is spare and there
is no such field. -/
def Gives (spare : String × Json → Prop) (changes : String → Json → Json → Prop) (fields : Fields)
    (m : String × Json) : Prop :=
  (∃ w, changes m.1 m.2 w ∧ fields.valueOf? m.1 = some w.toNode) ∨
    (spare m ∧ fields.valueOf? m.1 = none)

variable {α : Type} {read : Node → Option α} {a : α} {fields : Fields} {m : String × Json}

theorem required_of_gives (h : fields.Gives spare changes m) (hspare : ¬ spare m)
    (hread : ∀ w, changes m.1 m.2 w → read w.toNode = some a) :
    required read m.1 fields = some a := by
  rcases h with ⟨w, hw, hvalue⟩ | ⟨hm, -⟩
  · rw [required, hvalue, Option.bind_some, hread w hw]
  · exact absurd hm hspare

theorem withDefault_of_gives {default : α} (h : fields.Gives spare changes m)
    (hspare : spare m → default = a) (hread : ∀ w, changes m.1 m.2 w → read w.toNode = some a) :
    withDefault default read m.1 fields = some a := by
  rcases h with ⟨w, hw, hvalue⟩ | ⟨hm, hvalue⟩
  · rw [withDefault, hvalue]
    exact hread w hw
  · rw [withDefault, hvalue, hspare hm]

end Fields

/-- The fields of an edited record are those that its members give. -/
theorem Json.Edits.exists_fields? {spare : String × Json → Prop}
    {changes : String → Json → Json → Prop} {members edited : List (String × Json)}
    (h : Edits (members.map (·.1)) spare changes members edited)
    (hnodup : (members.map (·.1)).Nodup) (form : ListRows) :
    ∃ fields, (object edited).toNode.fields? form (members.map (·.1)) = some fields ∧
      ∀ m ∈ members, Fields.Gives spare changes fields m := by
  have hknown : (((toEntries edited).filter fun e => (members.map (·.1)).contains e.1).map
      Prod.fst).Nodup := by
    have hnames := hnodup.sublist h.known_sublist
    rw [List.filter_map] at hnames
    rw [toEntries_eq_map, List.filter_map, List.map_map]
    exact hnames
  obtain ⟨fields, hfields, hvalue⟩ := Node.exists_fields?_table hknown form
  refine ⟨fields, hfields, ?_⟩
  intro m hm
  have hname : m.1 ∈ members.map (·.1) := List.mem_map_of_mem hm
  have hfind : Fields.valueOf? fields m.1 = (edited.find? (·.1 = m.1)).map fun m => m.2.toNode := by
    rw [hvalue m.1 hname, Fields.valueOf?, toEntries_eq_map, List.find?_map, Option.map_map]
    rfl
  rw [Fields.Gives, hfind]
  rcases h.find?_of_mem hnodup hm hname with ⟨w, hw, hfound⟩ | ⟨hspare, hnone⟩
  · exact .inl ⟨w, hw, by rw [hfound]; rfl⟩
  · exact .inr ⟨hspare, by rw [hnone]; rfl⟩

end TrafficWarden
