import Mathlib.Data.List.Nodup
import TrafficWarden.Catalog.Document

/-!
# Fields of tables

The fields that are read from a table are the entries with known names. Entries with other names
make no difference to them.
-/

namespace TrafficWarden.Node

theorem distinctNames_of_nodup {fields : Fields} (h : (fields.map Prod.fst).Nodup) :
    distinctNames fields = true := by
  induction fields with
  | nil => rfl
  | cons e fields ih =>
    rw [List.map_cons, List.nodup_cons] at h
    have hnone : fields.any (·.1 = e.1) = false := by
      simp only [List.any_eq_false, decide_eq_true_eq]
      exact fun other hother heq => h.1 (heq ▸ List.mem_map_of_mem hother)
    simp [distinctNames, hnone, ih h.2]

/-- Where no known name occurs twice, a field is what stands at its name. -/
theorem exists_fields?_table {entries : List (String × Node)} {names : List String}
    (h : ((entries.filter fun e => names.contains e.1).map Prod.fst).Nodup) (form : ListRows) :
    ∃ fields, (table entries).fields? form names = some fields ∧
      ∀ name ∈ names, Fields.valueOf? fields name = Fields.valueOf? entries name := by
  have hfields : (table entries).fields? form names =
      some (entries.filter fun e => names.contains e.1) := by
    rw [fields?]
    simp only [distinctNames_of_nodup h, if_true]
  refine ⟨_, hfields, ?_⟩
  intro name hname
  have hfind : ∀ e : String × Node,
      (names.contains e.1 = true ∧ decide (e.1 = name) = true) ↔ e.1 = name := by
    intro e
    by_cases heq : e.1 = name <;> simp [heq, hname]
  rw [Fields.valueOf?, Fields.valueOf?, List.find?_filter]
  simp only [hfind]

end TrafficWarden.Node
