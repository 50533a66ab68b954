import Mathlib.Algebra.GroupWithZero.Nat
import TrafficWarden.Proofs.DispatchRaces

/-!
# Cycles are all or nothing

A cycle fails, skips, or applies the whole script of its moment. Only in the last case does its
runner have something more to tell. A forced cycle asks for no decision, and an unforced one that
has to apply does the same as a forced one.
-/

namespace TrafficWarden

open Calendar

variable {σ : Type}

namespace Runner

def Accepts (runner : Runner σ) (state : σ) (script : String) (next : σ) : Prop :=
  ∃ warnings, runner.apply state script = (.ok (), next, warnings)

def Refuses (runner : Runner σ) (state : σ) (script : String) (fault : Fault) (next : σ) : Prop :=
  ∃ warnings, runner.apply state script = (.error fault, next, warnings)

end Runner

theorem Plan.ruleCount_eq (p : Plan) :
    p.ruleCount = (p.policies.map fun c => c.rules.rules.length).sum := by
  rw [ruleCount, List.length_flatMap]

theorem PolicySource.preview_of_plan {s : PolicySource} {interfaces : Interfaces}
    {moment : Timestamp} {plan : Plan} (h : (s.plan interfaces moment).1 = .ok plan) :
    (s.preview interfaces moment).1 = .ok plan.script := by
  have hpreview : (s.preview interfaces moment).1 = (s.plan interfaces moment).1.map Plan.script :=
    rfl
  rw [hpreview, h]
  rfl

theorem PolicySource.idle_iff {s : PolicySource} {last : Except Fault (Option Timestamp)}
    {now : Timestamp} {status : DispatchStatus} (h : s.status last now = .ok status) :
    status.state.needsDispatch = false ↔ status.state = .idle := by
  refine ⟨fun hidle => (unchanged_of_idle h hidle).1, fun hidle => ?_⟩
  rw [hidle]
  rfl

namespace CycleStep

variable (interfaces : Interfaces)

/-- What a cycle leaves behind, whatever its runner is: after a fault, the runner is as it was or
has refused the script of the moment; after a skip it is as it was; and otherwise it has accepted
that script, and no other. -/
structure AllOrNothing (c : CycleStep σ) (state : σ) : Prop where
  failed : ∀ fault, (c.cycle interfaces state).1 = .error fault →
    (c.cycle interfaces state).2 = state ∨ ∃ script,
      (c.source.preview interfaces c.now).1 = .ok script ∧
        c.runner.Refuses state script fault (c.cycle interfaces state).2
  skipped : ∀ why, (c.cycle interfaces state).1 = .ok (.skipped why) ↔
    c.force = false ∧ why = .idle ∧ ∃ before status, c.runner.last state = .ok (some before) ∧
      c.source.status (c.runner.last state) c.now = .ok status ∧ status.state = .idle
  untouched : ∀ why, (c.cycle interfaces state).1 = .ok (.skipped why) →
    (c.cycle interfaces state).2 = state
  applied : ∀ policies rules, (c.cycle interfaces state).1 = .ok (.applied policies rules) →
    ∃ plan, (c.source.plan interfaces c.now).1 = .ok plan ∧
      (c.source.preview interfaces c.now).1 = .ok plan.script ∧
      c.runner.Accepts state plan.script (c.cycle interfaces state).2 ∧
      policies = plan.policies.length ∧
      rules = (plan.policies.map fun c => c.rules.rules.length).sum

/-- The decision of a cycle matters only if it is asked for, and then only for whether the cycle
applies its script. -/
structure ForcedAlike (c : CycleStep σ) (state : σ) : Prop where
  unread : ∀ last, ({ c with force := true, runner := ⟨last, c.runner.apply⟩ } : CycleStep σ).cycle
    interfaces state = ({ c with force := true } : CycleStep σ).cycle interfaces state
  decided : ∀ status, c.source.status (c.runner.last state) c.now = .ok status →
    (∀ why, (c.cycle interfaces state).1 ≠ .ok (.skipped why)) →
      c.cycle interfaces state = ({ c with force := true } : CycleStep σ).cycle interfaces state

variable {interfaces}

theorem cycle_of_force (c : CycleStep σ) (state : σ) :
    ({ c with force := true } : CycleStep σ).cycle interfaces state =
      ((c.source.applyPlan c.runner interfaces c.now state).1,
        (c.source.applyPlan c.runner interfaces c.now state).2.1) := rfl

theorem skipped_iff_idle (c : CycleStep σ) (state : σ) (why : DispatchState) :
    (c.cycle interfaces state).1 = .ok (.skipped why) ↔
      c.force = false ∧ why = .idle ∧ ∃ before status, c.runner.last state = .ok (some before) ∧
        c.source.status (c.runner.last state) c.now = .ok status ∧ status.state = .idle := by
  constructor
  · intro h
    have hforce : c.force = false := by
      cases hc : c.force with
      | false => rfl
      | true =>
        have happly := c.source.applyPlan_ne_skipped c.runner interfaces c.now state why
        have hcycle : (c.cycle interfaces state).1 =
            (c.source.applyPlan c.runner interfaces c.now state).1 := by
          rw [cycle, hc]
          rfl
        exact absurd (hcycle.symm.trans h) happly
    have hskips : ∃ why, (c.source.cycle c.runner interfaces c.now false state).1 =
        .ok (.skipped why) := by
      rw [cycle, hforce] at h
      exact ⟨why, h⟩
    rw [PolicySource.cycle_skipped_iff] at hskips
    obtain ⟨status, hstatus, hneeds⟩ := hskips
    obtain ⟨hidle, before, hlast, -⟩ := PolicySource.unchanged_of_idle hstatus hneeds
    refine ⟨hforce, ?_, before, status, hlast, hstatus, hidle⟩
    -- the state of a skip is only known from the effect of the cycle
    obtain ⟨next, -, heffect⟩ := exists_effect h
    cases heffect
    rfl
  · rintro ⟨hforce, rfl, before, status, -, hstatus, hidle⟩
    have hneeds : status.state.needsDispatch = false := (PolicySource.idle_iff hstatus).mpr hidle
    rw [cycle, hforce, PolicySource.cycle, if_neg Bool.false_ne_true]
    simp only [hstatus, hidle]
    rfl

theorem allOrNothing (c : CycleStep σ) (state : σ) : c.AllOrNothing interfaces state where
  failed fault h := by
    obtain ⟨next, hnext, heffect⟩ := exists_effect h
    rw [hnext]
    cases heffect with
    | undecided => exact .inl rfl
    | unplanned => exact .inl rfl
    | refused _ hplan hrefusal =>
      exact .inr ⟨_, PolicySource.preview_of_plan hplan, _, hrefusal⟩
  skipped why := c.skipped_iff_idle state why
  untouched _ h := state_of_skipped h
  applied policies rules h := by
    obtain ⟨next, hnext, heffect⟩ := exists_effect h
    rw [hnext]
    cases heffect with
    | applied _ hplan hsuccess =>
      exact ⟨_, hplan, PolicySource.preview_of_plan hplan, ⟨_, hsuccess⟩, rfl, Plan.ruleCount_eq _⟩

theorem forcedAlike (c : CycleStep σ) (state : σ) : c.ForcedAlike interfaces state where
  unread _ := rfl
  decided status hstatus hskip := by
    rw [cycle_of_force, cycle, PolicySource.cycle]
    cases hforce : c.force with
    | true => rfl
    | false =>
      cases hneeds : status.state.needsDispatch with
      | true => simp [hstatus, hneeds]
      | false =>
        have hidle := PolicySource.unchanged_of_idle hstatus hneeds
        obtain ⟨hidle, before, hlast, -⟩ := hidle
        exact absurd ((c.skipped_iff_idle state .idle).mpr
          ⟨hforce, rfl, before, status, hlast, hstatus, hidle⟩) (hskip .idle)

theorem ledger_of_cycle {ledger : σ → Ledger} {c : CycleStep σ} (hc : c.runner.Keeps ledger c.now)
    (state : σ) :
    (∀ fault, (c.cycle interfaces state).1 = .error fault →
      ledger (c.cycle interfaces state).2 = ledger state) ∧
    (∀ policies rules, (c.cycle interfaces state).1 = .ok (.applied policies rules) →
      ∃ script, (c.source.preview interfaces c.now).1 = .ok script ∧
        ledger (c.cycle interfaces state).2 = (ledger state).add c.now script) := by
  constructor
  · intro fault h
    rcases (c.allOrNothing state).failed fault h with hnext | ⟨script, -, warnings, hrefusal⟩
    · rw [hnext]
    · exact hc.refused hrefusal
  · intro policies rules h
    obtain ⟨plan, -, hpreview, ⟨warnings, hsuccess⟩, -, -⟩ :=
      (c.allOrNothing state).applied policies rules h
    exact ⟨plan.script, hpreview, hc.applied hsuccess⟩

end CycleStep

namespace Recording

/-- A cycle on the recording runner. -/
def cycleStep (s : PolicySource) (now : Timestamp) (force : Bool) : CycleStep Recording :=
  ⟨s, runner now, now, force⟩

/-- The record after a cycle, if it was `recorded` before. -/
def recordAfter (now : Timestamp) (recorded : Option Timestamp) :
    Except Fault DispatchOutcome → Option Timestamp
  | .ok _ => some now
  | .error _ => recorded

theorem applyPlan_with (s : PolicySource) (interfaces : Interfaces) (now : Timestamp)
    (r : Recording) (recorded : Option Timestamp) (unreadable : Bool) :
    let result := s.applyPlan (runner now) interfaces now r
    let other := s.applyPlan (runner now) interfaces now
      { r with recorded := recorded, unreadable := unreadable }
    other.1 = result.1 ∧ other.2.1 = { result.2.1 with
      recorded := recordAfter now recorded result.1, unreadable := unreadable } := by
  unfold PolicySource.applyPlan
  rcases s.plan interfaces now with ⟨fault | plan, warnings⟩
  · exact ⟨rfl, rfl⟩
  · cases hfailures : r.failures <;> simp [runner, apply, hfailures, recordAfter]

/-- On the recording runner: after a fault, the applied scripts and the record are as before; an
application adds the script that is previewed, once, and records its moment; and what is recorded,
and whether it can be read, makes no difference to a forced cycle. -/
structure Settled (s : PolicySource) (interfaces : Interfaces) (now : Timestamp) (force : Bool)
    (r : Recording) : Prop where
  failed : ∀ fault, ((cycleStep s now force).cycle interfaces r).1 = .error fault →
    ((cycleStep s now force).cycle interfaces r).2.ledger = r.ledger
  applied : ∀ policies rules,
    ((cycleStep s now force).cycle interfaces r).1 = .ok (.applied policies rules) →
      ∃ script, (s.preview interfaces now).1 = .ok script ∧
        ((cycleStep s now force).cycle interfaces r).2.ledger = r.ledger.add now script
  forced : ∀ recorded unreadable,
    (cycleStep s now true).cycle interfaces
        { r with recorded := recorded, unreadable := unreadable } =
      (((cycleStep s now true).cycle interfaces r).1,
        { ((cycleStep s now true).cycle interfaces r).2 with
          recorded := recordAfter now recorded ((cycleStep s now true).cycle interfaces r).1
          unreadable := unreadable })

theorem settled (s : PolicySource) (interfaces : Interfaces) (now : Timestamp) (force : Bool)
    (r : Recording) : Settled s interfaces now force r where
  failed := (CycleStep.ledger_of_cycle (c := cycleStep s now force) (keeps_runner now) r).1
  applied := (CycleStep.ledger_of_cycle (c := cycleStep s now force) (keeps_runner now) r).2
  forced recorded unreadable := by
    obtain ⟨hresult, hnext⟩ := applyPlan_with s interfaces now r recorded unreadable
    exact Prod.ext hresult hnext

end Recording

/-- A cycle is all or nothing, on any source of policies, readable or not, and on any runner, in
particular on the one that keeps what it applied. -/
theorem cycle_all_or_nothing (s : PolicySource) (interfaces : Interfaces) (now : Timestamp)
    (force : Bool) :
    (∀ {σ : Type} (runner : Runner σ) (state : σ),
      CycleStep.AllOrNothing interfaces ⟨s, runner, now, force⟩ state ∧
        CycleStep.ForcedAlike interfaces ⟨s, runner, now, force⟩ state) ∧
      ∀ r : Recording, Recording.Settled s interfaces now force r :=
  ⟨fun runner state => ⟨CycleStep.allOrNothing ⟨s, runner, now, force⟩ state,
    CycleStep.forcedAlike ⟨s, runner, now, force⟩ state⟩, Recording.settled s interfaces now force⟩

end TrafficWarden
