import TrafficWarden.Calendar.Timestamp

/-!
# Days of the calendar

Timestamps are ordered by their dates and then by their times of day. The number of a date goes up
by one with every day, at the ends of months, years and centuries too, so the weekdays come back
after whole weeks.
-/

namespace TrafficWarden.Calendar

namespace Date

/-- Dates in the order of their years, months and days. -/
instance : LT Date := ⟨fun a b => a.year < b.year ∨
  a.year = b.year ∧ (a.month < b.month ∨ a.month = b.month ∧ a.day < b.day)⟩

instance (a b : Date) : Decidable (a < b) := inferInstanceAs (Decidable (a.year < b.year ∨
  a.year = b.year ∧ (a.month < b.month ∨ a.month = b.month ∧ a.day < b.day)))

/-- The day after a date, unless it is the last one. -/
def next? (d : Date) : Option Date :=
  if d.day < daysInMonth d.year d.month then of? d.year d.month (d.day + 1)
  else if d.month < 12 then of? d.year (d.month + 1) 1
  else of? (d.year + 1) 1 1

/-- The date that lies a number of days later. -/
def later? : Nat → Date → Option Date
  | 0, d => some d
  | n + 1, d => d.next?.bind (later? n)

theorem eq_of_of? {year : Int} {month day : Nat} {d : Date} (h : of? year month day = some d) :
    d.year = year ∧ d.month = month ∧ d.day = day := by
  unfold of? at h
  split at h
  · rw [← Option.some.inj h]
    exact ⟨rfl, rfl, rfl⟩
  · exact absurd h (by simp)

/-- The days up to the March of a year, from the March of the year 0 on. -/
def daysToMarch (year : Int) : Int :=
  let era := year / 400
  let yearOfEra := year - era * 400
  era * 146097 + (yearOfEra * 365 + yearOfEra / 4 - yearOfEra / 100)

theorem daysToMarch_succ (year : Int) :
    daysToMarch (year + 1) = daysToMarch year + if isLeapYear (year + 1) then 366 else 365 := by
  simp only [daysToMarch, isLeapYear, Bool.and_eq_true, Bool.or_eq_true, beq_iff_eq, bne_iff_ne]
  split <;> omega

theorem epochDays_eq (d : Date) :
    d.epochDays = daysToMarch (if d.month ≤ 2 then d.year - 1 else d.year) +
      ((153 * ((d.month + 9) % 12) + 2) / 5 : Nat) + d.day - 719469 := by
  simp only [epochDays, daysToMarch]
  omega

theorem day_le (d : Date) : d.day ≤ daysInMonth d.year d.month := by
  have hvalid := d.valid
  simp only [isDate, Bool.and_eq_true, decide_eq_true_eq] at hvalid
  exact hvalid.2

theorem one_le_day (d : Date) : 1 ≤ d.day := by
  have hvalid := d.valid
  simp only [isDate, Bool.and_eq_true, decide_eq_true_eq] at hvalid
  exact hvalid.1.2

theorem month_range (d : Date) : 1 ≤ d.month ∧ d.month ≤ 12 := by
  have hsome : 1 ≤ daysInMonth d.year d.month := Nat.le_trans d.one_le_day d.day_le
  unfold daysInMonth at hsome
  split at hsome <;> omega

/-- The first day of a month follows the last one of the month before. -/
theorem epochDays_of_month_end {d e : Date} (hday : d.day = daysInMonth d.year d.month)
    (hmonth : d.month < 12) (he : e.year = d.year ∧ e.month = d.month + 1 ∧ e.day = 1) :
    e.epochDays = d.epochDays + 1 := by
  have hrange := d.month_range
  have hmarch := daysToMarch_succ (d.year - 1)
  rw [Int.sub_add_cancel] at hmarch
  rw [epochDays_eq, epochDays_eq, he.1, he.2.1, he.2.2, hday]
  generalize d.month = month at hrange hmonth ⊢
  -- only the end of February depends on the year
  by_cases hfebruary : month = 2
  · subst hfebruary
    simp only [daysInMonth]
    split at hmarch <;> simp_all <;> omega
  · have hcases : month ∈ [1, 3, 4, 5, 6, 7, 8, 9, 10, 11] := by
      simp only [List.mem_cons, List.not_mem_nil, or_false]
      omega
    simp only [List.mem_cons, List.not_mem_nil, or_false] at hcases
    rcases hcases with rfl | rfl | rfl | rfl | rfl | rfl | rfl | rfl | rfl | rfl <;>
      simp [daysInMonth] <;> omega

/-- The number of a date counts its days. -/
theorem epochDays_next? {d e : Date} (h : d.next? = some e) : e.epochDays = d.epochDays + 1 := by
  have hle := d.day_le
  unfold next? at h
  split at h
  · obtain ⟨hyear, hmonth, hday⟩ := eq_of_of? h
    rw [epochDays_eq, epochDays_eq, hyear, hmonth, hday]
    omega
  · have hday : d.day = daysInMonth d.year d.month := by omega
    split at h
    · rename_i hmonth
      exact epochDays_of_month_end hday hmonth (eq_of_of? h)
    · have hmonth : d.month = 12 := by have := d.month_range; omega
      obtain ⟨hyear, hfirst, hone⟩ := eq_of_of? h
      rw [epochDays_eq, epochDays_eq, hyear, hfirst, hone, hday, hmonth]
      simp [daysInMonth]
      omega

theorem epochDays_later? {n : Nat} {d e : Date} (h : d.later? n = some e) :
    e.epochDays = d.epochDays + n := by
  induction n generalizing d with
  | zero =>
    rw [← Option.some.inj h]
    simp
  | succ n ih =>
    obtain ⟨next, hnext, hlater⟩ := Option.bind_eq_some_iff.mp h
    rw [ih hlater, epochDays_next? hnext]
    omega

/-- Whole weeks keep the weekday. -/
theorem weekday_later? {k : Nat} {d e : Date} (h : d.later? (7 * k) = some e) :
    e.weekday = d.weekday := by
  have hdays := epochDays_later? h
  have hmod : e.epochDays % 7 = d.epochDays % 7 := by omega
  rw [weekday, weekday, Weekday.afterThursday, Weekday.afterThursday, hmod]

/-- A week with a leap day in it. -/
example : later? 7 ⟨2024, 2, 27, by decide⟩ = some ⟨2024, 3, 5, by decide⟩ := by decide

end Date

namespace Timestamp

instance : LT Timestamp := ⟨fun a b => a.date < b.date ∨ a.date = b.date ∧ a.time < b.time⟩

instance : LE Timestamp := ⟨fun a b => a.date < b.date ∨ a.date = b.date ∧ a.time ≤ b.time⟩

instance (a b : Timestamp) : Decidable (a < b) :=
  inferInstanceAs (Decidable (a.date < b.date ∨ a.date = b.date ∧ a.time < b.time))

end Timestamp

end TrafficWarden.Calendar
