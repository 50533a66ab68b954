import TrafficWarden.Proofs.CycleRuns

/-!
# Edits of the store between cycles

A decision compares two moments in the present store, and not the present store with the one that
was dispatched. So an edit is taken up if it changes who is active between the two moments, and it
is missed as long as it does not.
-/

namespace TrafficWarden

open Calendar

namespace Progress

variable {σ : Type} {ledger : σ → Ledger}

/-- Every cycle of a run may be on another store. After one that does not fail, the last applied
plan has the policies of the present plan if and only if it has those that the present store planned
for the moment of the last dispatch. -/
theorem applied_ids_current_iff (interfaces : Interfaces) {start : σ}
    (hstart : (ledger start).recorded = none) {steps : List (CycleStep σ)}
    (hsteps : ∀ a ∈ steps, ∃ inserts, a.On ledger (.ofInserts inserts)) {c : CycleStep σ}
    {inserts : List StoreInsert} (hc : c.On ledger (.ofInserts inserts))
    {outcome : DispatchOutcome}
    (hok : (c.cycle interfaces (run interfaces start steps).state).1 = .ok outcome) :
    ∃ a applied earlier present,
      (run interfaces start (steps ++ [c])).applied = some a ∧
        (ledger (run interfaces start (steps ++ [c])).state).recorded = some a.now ∧
        (a.source.plan interfaces a.now).1 = .ok applied ∧
        (ledger (run interfaces start (steps ++ [c])).state).scripts.getLast? =
          some applied.script ∧
        ((Store.ofInserts inserts).source.plan interfaces a.now).1 = .ok earlier ∧
        ((Store.ofInserts inserts).source.plan interfaces c.now).1 = .ok present ∧
        (applied.policyIds = present.policyIds ↔ applied.policyIds = earlier.policyIds) := by
  have hkeeps : ∀ a ∈ steps, a.runner.Keeps ledger a.now := by
    intro a ha
    obtain ⟨_, hon⟩ := hsteps a ha
    exact hon.keeps
  obtain ⟨a, applied, happlied, hmoment, hplan, hlast, hactive⟩ :=
    settled_run hstart hkeeps hc (Store.distinctIds_ofInserts inserts) hok
  obtain ⟨earlier, hearlier⟩ := (Store.ofInserts inserts).exists_plan interfaces a.now
  refine ⟨a, applied, earlier, { earlier with moment := c.now }, happlied, hmoment, hplan, hlast,
    hearlier, Store.plan_of_activeAt_eq hactive hearlier, ?_⟩
  -- the policies of a plan do not depend on its moment
  exact Iff.rfl

/-- A policy that is added to a store with a window is missed while the window makes no
difference. -/
theorem applied_ids_current_iff_of_added :
    let guests : Policy := ⟨⟨1⟩, "guests", none, true, none, none, none,
      [⟨.sunday, ⟨8, 0, 0⟩, ⟨9, 0, 0⟩, by decide⟩]⟩
    let staff : Policy := ⟨⟨2⟩, "staff", none, true, some .high, none, none, []⟩
    let noon : Timestamp := { Timestamp.epoch with time := ⟨12, 0, 0⟩ }
    let steps : List (CycleStep Recording) :=
      [⟨(Store.ofInserts [.policy guests]).source, Recording.runner .epoch, .epoch, false⟩]
    let edited := Store.ofInserts [.policy guests, .policy staff]
    let c : CycleStep Recording := ⟨edited.source, Recording.runner noon, noon, false⟩
    (c.cycle .standard (run .standard .empty steps).state).1 = .ok (.skipped .idle) ∧
      ∃ a applied earlier present,
        (run .standard .empty (steps ++ [c])).applied = some a ∧
          (Recording.ledger (run .standard .empty (steps ++ [c])).state).recorded = some a.now ∧
          (a.source.plan .standard a.now).1 = .ok applied ∧
          (Recording.ledger (run .standard .empty (steps ++ [c])).state).scripts.getLast? =
            some applied.script ∧
          (edited.source.plan .standard a.now).1 = .ok earlier ∧
          (edited.source.plan .standard c.now).1 = .ok present ∧
          (applied.policyIds = present.policyIds ↔ applied.policyIds = earlier.policyIds) := by
  intro guests staff noon steps edited c
  have hstart : (Recording.ledger .empty).recorded = none := rfl
  have hsteps : ∀ a ∈ steps, ∃ inserts, a.On Recording.ledger (.ofInserts inserts) := by
    intro a ha
    rw [List.mem_singleton.mp ha]
    exact ⟨_, Store.views_source _, Recording.keeps_runner _⟩
  have hc : c.On Recording.ledger edited := ⟨Store.views_source _, Recording.keeps_runner _⟩
  have hok : (c.cycle .standard (run .standard .empty steps).state).1 = .ok (.skipped .idle) := by
    decide +kernel
  exact ⟨hok, applied_ids_current_iff .standard hstart hsteps hc hok⟩

/-- A policy that is added to a store with a window is missed: it is active at both moments in the
present store, so the cycle finds nothing to do, and the last applied plan is without the policy. -/
theorem added_policy_missed :
    let guests : Policy := ⟨⟨1⟩, "guests", none, true, none, none, none,
      [⟨.sunday, ⟨8, 0, 0⟩, ⟨9, 0, 0⟩, by decide⟩]⟩
    let staff : Policy := ⟨⟨2⟩, "staff", none, true, some .high, none, none, []⟩
    let noon : Timestamp := { Timestamp.epoch with time := ⟨12, 0, 0⟩ }
    let steps : List (CycleStep Recording) :=
      [⟨(Store.ofInserts [.policy guests]).source, Recording.runner .epoch, .epoch, false⟩]
    let edited := Store.ofInserts [.policy guests, .policy staff]
    let c : CycleStep Recording := ⟨edited.source, Recording.runner noon, noon, false⟩
    edited.source.hasTimeWindows = .ok true ∧
      (c.cycle .standard (run .standard .empty steps).state).1 = .ok (.skipped .idle) ∧
      ∃ a applied present, (run .standard .empty (steps ++ [c])).applied = some a ∧
        (a.source.plan .standard a.now).1 = .ok applied ∧
        (edited.source.plan .standard noon).1 = .ok present ∧
          applied.policyIds.toList = [] ∧ present.policyIds.toList = [⟨2⟩] :=
  ⟨rfl, by decide +kernel, _, _, _, rfl, rfl, rfl, by decide +kernel, by decide +kernel⟩

end Progress

end TrafficWarden
