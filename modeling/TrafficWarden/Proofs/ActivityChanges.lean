import TrafficWarden.Policy.Basic
import TrafficWarden.Proofs.CalendarDays

/-!
# When policies become active

Between two moments a policy becomes active or ceases to be only if one of its windows begins or
ends after the first moment and not after the second. Its activity comes back every week.
-/

namespace TrafficWarden

open Calendar

namespace TimeWindow

/-- A moment at which a window begins or ends. -/
def IsEdge (w : TimeWindow) (moment : Timestamp) : Prop :=
  moment.date.weekday = w.weekday ∧ (moment.time = w.start ∨ moment.time = w.stop)

theorem contains_iff {w : TimeWindow} {moment : Timestamp} :
    w.contains moment = true ↔
      moment.date.weekday = w.weekday ∧ w.start ≤ moment.time ∧ moment.time < w.stop := by
  simp [contains, and_assoc]

/-- A window that holds the earlier of two moments alone ends between them. -/
theorem ends_between {w : TimeWindow} {before now : Timestamp} (hlt : before < now)
    (hin : w.contains before = true) (hout : ¬ w.contains now = true) :
    ∃ edge, w.IsEdge edge ∧ before < edge ∧ edge ≤ now := by
  obtain ⟨hweekday, hstart, hstop⟩ := contains_iff.mp hin
  refine ⟨⟨before.date, w.stop⟩, ⟨hweekday, .inr rfl⟩, .inr ⟨rfl, hstop⟩, ?_⟩
  obtain hdate | ⟨hdate, htime⟩ := hlt
  · exact .inl hdate
  · -- on one day the window can only have ended
    refine .inr ⟨hdate, Nat.le_of_not_lt fun hover => ?_⟩
    have hbegun : w.start ≤ now.time := Nat.le_trans hstart (Nat.le_of_lt htime)
    exact hout (contains_iff.mpr ⟨hdate ▸ hweekday, hbegun, hover⟩)

/-- A window that holds the later of two moments alone begins between them. -/
theorem begins_between {w : TimeWindow} {before now : Timestamp} (hlt : before < now)
    (hout : ¬ w.contains before = true) (hin : w.contains now = true) :
    ∃ edge, w.IsEdge edge ∧ before < edge ∧ edge ≤ now := by
  obtain ⟨hweekday, hstart, hstop⟩ := contains_iff.mp hin
  refine ⟨⟨now.date, w.start⟩, ⟨hweekday, .inl rfl⟩, ?_, .inr ⟨rfl, hstart⟩⟩
  obtain hdate | ⟨hdate, htime⟩ := hlt
  · exact .inl hdate
  · refine .inr ⟨hdate, Nat.lt_of_not_le fun hbegun => ?_⟩
    have hover : before.time < w.stop := Nat.lt_trans htime hstop
    exact hout (contains_iff.mpr ⟨hdate ▸ hweekday, hbegun, hover⟩)

/-- Windows look at the weekday and the time of day alone. -/
theorem contains_congr {t u : Timestamp} (hweekday : t.date.weekday = u.date.weekday)
    (htime : t.time = u.time) (w : TimeWindow) : w.contains t = w.contains u := by
  rw [contains, contains, hweekday, htime]

end TimeWindow

namespace Policy

/-- The windows of a policy matter only while it is enabled and has some. -/
theorem isActive_ne_iff {p : Policy} {t u : Timestamp} :
    p.isActive t ≠ p.isActive u ↔ p.enabled = true ∧ p.windows ≠ [] ∧
      p.windows.any (·.contains t) ≠ p.windows.any (·.contains u) := by
  cases hwindows : p.windows with
  | nil => simp [isActive, hwindows]
  | cons w ws =>
    cases henabled : p.enabled with
    | false => simp [isActive, henabled]
    | true => simp [isActive, hwindows, henabled]

/-- Between two moments that differ in the activity of a policy, a window of it begins or ends.
Moments that are whole weeks apart do not differ. -/
theorem changes_at_window_edges (p : Policy) (t u : Timestamp) :
    (t < u → p.isActive t ≠ p.isActive u →
        ∃ w ∈ p.windows, ∃ edge, w.IsEdge edge ∧ t < edge ∧ edge ≤ u) ∧
      ∀ weeks, t.time = u.time → t.date.later? (7 * weeks) = some u.date →
        p.isActive t = p.isActive u := by
  constructor
  · intro hlt hne
    obtain ⟨-, -, hany⟩ := isActive_ne_iff.mp hne
    cases hbefore : p.windows.any (·.contains t) with
    | true =>
      have hnow : p.windows.any (·.contains u) = false := by
        rw [hbefore] at hany
        simpa using hany
      obtain ⟨w, hw, hin⟩ := List.any_eq_true.mp hbefore
      exact ⟨w, hw, TimeWindow.ends_between hlt hin (List.any_eq_false.mp hnow w hw)⟩
    | false =>
      have hnow : p.windows.any (·.contains u) = true := by
        rw [hbefore] at hany
        simpa using hany.symm
      obtain ⟨w, hw, hin⟩ := List.any_eq_true.mp hnow
      exact ⟨w, hw, TimeWindow.begins_between hlt (List.any_eq_false.mp hbefore w hw) hin⟩
  · intro weeks htime hlater
    have hweekday : t.date.weekday = u.date.weekday := (Date.weekday_later? hlater).symm
    have hcontains : (fun w : TimeWindow => w.contains t) = fun w => w.contains u :=
      funext (TimeWindow.contains_congr hweekday htime)
    rw [isActive, isActive, hcontains]

/-- Two windows of a Tuesday follow one another. The policy is active in the leap second before they
meet, and again a week later, but not at the end of the second one. -/
theorem changes_at_window_edges_of_adjacent :
    let p : Policy := ⟨⟨1⟩, "office", none, true, none, none, none,
      [⟨.tuesday, ⟨9, 0, 0⟩, ⟨17, 0, 0⟩, by decide⟩,
        ⟨.tuesday, ⟨17, 0, 0⟩, ⟨20, 0, 0⟩, by decide⟩]⟩
    let t : Timestamp := ⟨⟨2024, 2, 27, by decide⟩, ⟨16, 59, 60⟩⟩
    let u : Timestamp := ⟨⟨2024, 3, 5, by decide⟩, ⟨16, 59, 60⟩⟩
    let v : Timestamp := ⟨⟨2024, 3, 5, by decide⟩, ⟨20, 0, 0⟩⟩
    (t < v ∧ p.isActive t ≠ p.isActive v ∧
        ∃ w ∈ p.windows, ∃ edge, w.IsEdge edge ∧ t < edge ∧ edge ≤ v) ∧
      t.date.later? (7 * 1) = some u.date ∧ p.isActive t = p.isActive u := by
  intro p t u v
  have hlt : t < v := by decide
  have hne : p.isActive t ≠ p.isActive v := by decide
  have hlater : t.date.later? (7 * 1) = some u.date := by decide
  exact ⟨⟨hlt, hne, (changes_at_window_edges p t v).1 hlt hne⟩, hlater,
    (changes_at_window_edges p t u).2 1 rfl hlater⟩

end Policy

end TrafficWarden
