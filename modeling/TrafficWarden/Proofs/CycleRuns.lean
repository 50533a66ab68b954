import Mathlib.Data.List.Induction
import TrafficWarden.Dispatch.Cycle
import TrafficWarden.Proofs.StoreViews

/-!
# Runs of dispatch cycles

A cycle fails, finds nothing to do, or applies the script of its plan. Over a run of cycles, what is
recorded is always the moment of the last cycle that applied a script.
-/

namespace TrafficWarden

open Calendar

variable {σ : Type}

namespace PolicySource

/-- A decision finds nothing new: no policy has windows, or the same policies are active as
before. -/
def Unchanged (s : PolicySource) (before now : Timestamp) : Prop :=
  s.hasTimeWindows = .ok false ∨ s.activeChanged before now = .ok false

/-- A cycle has to apply a script: it is forced, or it decides so. -/
def Due (s : PolicySource) (last : Except Fault (Option Timestamp)) (now : Timestamp)
    (force : Bool) : Prop :=
  force = true ∨ ∃ status, s.status last now = .ok status ∧ status.state.needsDispatch = true

theorem unchanged_of_idle {s : PolicySource} {last : Except Fault (Option Timestamp)}
    {now : Timestamp} {status : DispatchStatus} (h : s.status last now = .ok status)
    (hidle : status.state.needsDispatch = false) :
    status.state = .idle ∧ ∃ before, last = .ok (some before) ∧ s.Unchanged before now := by
  obtain ⟨recorded, hrecorded, h⟩ := bind_eq_ok_iff.mp h
  obtain ⟨temporal, htemporal, h⟩ := bind_eq_ok_iff.mp h
  cases recorded with
  | none =>
    rw [← Except.ok.inj h] at hidle
    exact absurd hidle (by simp [decideState, DispatchState.needsDispatch])
  | some before =>
    cases temporal with
    | false =>
      refine ⟨?_, before, hrecorded, .inl htemporal⟩
      rw [← Except.ok.inj h]
      rfl
    | true =>
      obtain ⟨changed, hchanged, hstatus⟩ := bind_eq_ok_iff.mp h
      rw [← Except.ok.inj hstatus] at hidle ⊢
      cases changed with
      | false => exact ⟨rfl, before, hrecorded, .inr hchanged⟩
      | true => exact absurd hidle (by simp [decideState, DispatchState.needsDispatch])

/-- What a cycle can do: its result, and the state after it. -/
inductive Effect (s : PolicySource) (runner : Runner σ) (interfaces : Interfaces) (now : Timestamp)
    (force : Bool) (state : σ) : Except Fault DispatchOutcome → σ → Prop where
  | undecided {fault} (unforced : force = false)
      (decision : s.status (runner.last state) now = .error fault) :
      Effect s runner interfaces now force state (.error fault) state
  | skipped {before} (unforced : force = false) (last : runner.last state = .ok (some before))
      (unchanged : s.Unchanged before now) :
      Effect s runner interfaces now force state (.ok (.skipped .idle)) state
  | unplanned {fault} (due : s.Due (runner.last state) now force)
      (plan : (s.plan interfaces now).1 = .error fault) :
      Effect s runner interfaces now force state (.error fault) state
  | refused {plan fault next warnings} (due : s.Due (runner.last state) now force)
      (planned : (s.plan interfaces now).1 = .ok plan)
      (refusal : runner.apply state plan.script = (.error fault, next, warnings)) :
      Effect s runner interfaces now force state (.error fault) next
  | applied {plan next warnings} (due : s.Due (runner.last state) now force)
      (planned : (s.plan interfaces now).1 = .ok plan)
      (success : runner.apply state plan.script = (.ok (), next, warnings)) :
      Effect s runner interfaces now force state
        (.ok (.applied plan.policies.length plan.ruleCount)) next

section cycle

variable (s : PolicySource) (runner : Runner σ) (interfaces : Interfaces) (now : Timestamp)

theorem applyPlan_effect {force : Bool} {state : σ} (hdue : s.Due (runner.last state) now force) :
    s.Effect runner interfaces now force state (s.applyPlan runner interfaces now state).1
      (s.applyPlan runner interfaces now state).2.1 := by
  unfold applyPlan
  rcases hplan : s.plan interfaces now with ⟨fault | plan, warnings⟩
  · exact .unplanned hdue (congrArg Prod.fst hplan)
  · rcases happly : runner.apply state plan.script with ⟨fault | ⟨⟩, next, more⟩
    · simp only [happly]
      exact .refused hdue (congrArg Prod.fst hplan) happly
    · simp only [happly]
      exact .applied hdue (congrArg Prod.fst hplan) happly

theorem cycle_effect (force : Bool) (state : σ) :
    s.Effect runner interfaces now force state (s.cycle runner interfaces now force state).1
      (s.cycle runner interfaces now force state).2.1 := by
  unfold cycle
  cases force with
  | true => exact s.applyPlan_effect runner interfaces now (.inl rfl)
  | false =>
    cases hstatus : s.status (runner.last state) now with
    | error fault => exact .undecided rfl hstatus
    | ok status =>
      cases hneeds : status.state.needsDispatch with
      | true =>
        simp only [hneeds, if_true]
        exact s.applyPlan_effect runner interfaces now (.inr ⟨status, hstatus, hneeds⟩)
      | false =>
        obtain ⟨hidle, before, hlast, hsame⟩ := unchanged_of_idle hstatus hneeds
        simp only [hidle]
        exact .skipped rfl hlast hsame

end cycle

end PolicySource

/-- What was applied, in order, and the moment that is recorded for the last dispatch. -/
structure Ledger where
  scripts : List String
  recorded : Option Timestamp
deriving DecidableEq, Repr

def Ledger.add (l : Ledger) (now : Timestamp) (script : String) : Ledger :=
  ⟨l.scripts ++ [script], some now⟩

/-- A runner keeps a ledger on its states: it reads the record from it or fails to, and it adds a
script with the present moment or refuses it. -/
structure Runner.Keeps (runner : Runner σ) (ledger : σ → Ledger) (now : Timestamp) : Prop where
  last : ∀ state, runner.last state = .ok (ledger state).recorded ∨
    ∃ fault, runner.last state = .error fault
  applied : ∀ {state script next warnings}, runner.apply state script = (.ok (), next, warnings) →
    ledger next = (ledger state).add now script
  refused : ∀ {state script fault next warnings},
    runner.apply state script = (.error fault, next, warnings) → ledger next = ledger state

def Recording.ledger (r : Recording) : Ledger := ⟨r.scripts, r.recorded⟩

theorem Recording.keeps_runner (now : Timestamp) : (Recording.runner now).Keeps ledger now where
  last r := by
    cases hr : r.unreadable with
    | true => exact .inr ⟨clockGone, by simp [runner, Recording.last, hr]⟩
    | false => exact .inl (by simp [runner, Recording.last, hr, ledger])
  applied {r script next warnings} h := by
    cases hr : r.failures with
    | zero =>
      simp only [runner, apply, hr, Prod.mk.injEq] at h
      rw [← h.2.1]
      rfl
    | succ n => simp [runner, apply, hr] at h
  refused {r script fault next warnings} h := by
    cases hr : r.failures with
    | zero => simp [runner, apply, hr] at h
    | succ n =>
      simp only [runner, apply, hr, Prod.mk.injEq] at h
      rw [← h.2.1]
      rfl

/-- One cycle of a run: what it reads, what applies its script, its time, and whether it is
forced. -/
structure CycleStep (σ : Type) where
  source : PolicySource
  runner : Runner σ
  now : Timestamp
  force : Bool

namespace CycleStep

variable (interfaces : Interfaces) (ledger : σ → Ledger)

/-- The result of a cycle, and the state after it. -/
def cycle (c : CycleStep σ) (state : σ) : Except Fault DispatchOutcome × σ :=
  let (result, next, _) := c.source.cycle c.runner interfaces c.now c.force state
  (result, next)

/-- A cycle on a store, through reads and applications that may fail. -/
structure On (c : CycleStep σ) (store : Store) : Prop where
  views : c.source.Views store
  keeps : c.runner.Keeps ledger c.now

theorem cycle_effect (c : CycleStep σ) (state : σ) :
    c.source.Effect c.runner interfaces c.now c.force state (c.cycle interfaces state).1
      (c.cycle interfaces state).2 :=
  c.source.cycle_effect c.runner interfaces c.now c.force state

variable {interfaces}

/-- The effect of a cycle whose outcome is known. -/
theorem exists_effect {c : CycleStep σ} {state : σ} {outcome : Except Fault DispatchOutcome}
    (h : (c.cycle interfaces state).1 = outcome) :
    ∃ next, (c.cycle interfaces state).2 = next ∧
      c.source.Effect c.runner interfaces c.now c.force state outcome next :=
  ⟨_, rfl, h ▸ c.cycle_effect interfaces state⟩

end CycleStep

/-- The state of a run, and the last cycle of it that applied a script. -/
structure Progress (σ : Type) where
  state : σ
  applied : Option (CycleStep σ)

namespace Progress

variable (interfaces : Interfaces) (ledger : σ → Ledger)

/-- The progress after one more cycle. -/
def next (p : Progress σ) (c : CycleStep σ) : Progress σ :=
  match c.cycle interfaces p.state with
  | (.ok (.applied _ _), state) => ⟨state, some c⟩
  | (_, state) => ⟨state, p.applied⟩

/-- The progress of a run of cycles. -/
def run (start : σ) (steps : List (CycleStep σ)) : Progress σ :=
  steps.foldl (next interfaces) ⟨start, none⟩

theorem run_append_singleton (start : σ) (steps : List (CycleStep σ)) (c : CycleStep σ) :
    run interfaces start (steps ++ [c]) = (run interfaces start steps).next interfaces c := by
  rw [run, List.foldl_append]
  rfl

/-- The ledger tells of the last cycle that applied a script: its moment is recorded, and the
script of its plan is the last one. -/
def Recorded (p : Progress σ) : Prop :=
  match p.applied with
  | none => (ledger p.state).recorded = none
  | some a => (ledger p.state).recorded = some a.now ∧ ∃ plan,
      (a.source.plan interfaces a.now).1 = .ok plan ∧
        (ledger p.state).scripts.getLast? = some plan.script

variable {interfaces ledger}

/-- Either a cycle applies its script, or it leaves the ledger. -/
theorem next_cases (p : Progress σ) {c : CycleStep σ} (hc : c.runner.Keeps ledger c.now) :
    ((p.next interfaces c).applied = some c ∧ ∃ plan,
      (c.source.plan interfaces c.now).1 = .ok plan ∧
        ledger (p.next interfaces c).state = (ledger p.state).add c.now plan.script) ∨
    ((p.next interfaces c).applied = p.applied ∧
      ledger (p.next interfaces c).state = ledger p.state) := by
  have heffect := c.cycle_effect interfaces p.state
  unfold next
  rcases hcycle : c.cycle interfaces p.state with ⟨result, state⟩
  rw [hcycle] at heffect
  cases heffect with
  | undecided => exact .inr ⟨rfl, rfl⟩
  | skipped => exact .inr ⟨rfl, rfl⟩
  | unplanned => exact .inr ⟨rfl, rfl⟩
  | refused hdue hplan happly => exact .inr ⟨rfl, hc.refused happly⟩
  | applied hdue hplan happly => exact .inl ⟨rfl, _, hplan, hc.applied happly⟩

theorem Recorded.next {p : Progress σ} (h : p.Recorded interfaces ledger) {c : CycleStep σ}
    (hc : c.runner.Keeps ledger c.now) : (p.next interfaces c).Recorded interfaces ledger := by
  unfold Recorded at h ⊢
  rcases p.next_cases hc with ⟨happlied, plan, hplan, hledger⟩ | ⟨happlied, hledger⟩
  · rw [happlied, hledger]
    exact ⟨rfl, plan, hplan, List.getLast?_concat⟩
  · rw [happlied, hledger]
    exact h

theorem recorded_run {start : σ} (hstart : (ledger start).recorded = none)
    {steps : List (CycleStep σ)} (hsteps : ∀ c ∈ steps, c.runner.Keeps ledger c.now) :
    (run interfaces start steps).Recorded interfaces ledger := by
  induction steps using List.reverseRecOn with
  | nil => exact hstart
  | append_singleton steps c ih =>
    rw [run_append_singleton]
    have hbefore := ih fun a ha => hsteps a (List.mem_append_left _ ha)
    exact hbefore.next (hsteps c (List.mem_append_right _ (List.mem_singleton_self c)))

/-- After a cycle that did not fail, the store of that cycle has the same active policies as at the
moment that is recorded. -/
theorem Recorded.settled {p : Progress σ} (h : p.Recorded interfaces ledger) {c : CycleStep σ}
    {store : Store} (hc : c.On ledger store) (hstore : store.DistinctIds)
    {outcome : DispatchOutcome} (hok : (c.cycle interfaces p.state).1 = .ok outcome) :
    ∃ a, (p.next interfaces c).applied = some a ∧
      store.activeAt a.now = store.activeAt c.now := by
  have heffect := c.cycle_effect interfaces p.state
  unfold Recorded at h
  unfold Progress.next
  rcases hcycle : c.cycle interfaces p.state with ⟨result, state⟩
  rw [hcycle] at heffect hok
  cases heffect with
  | undecided => exact absurd hok (by simp)
  | unplanned => exact absurd hok (by simp)
  | refused => exact absurd hok (by simp)
  | applied => exact ⟨c, rfl, rfl⟩
  | @skipped before _ hread hsame =>
    -- the decision looked at the recorded moment, which is that of the last applied script
    have hrecorded : (ledger p.state).recorded = some before := by
      rcases hc.keeps.last p.state with hledger | ⟨fault, hfault⟩
      · exact Except.ok.inj (hledger.symm.trans hread)
      · rw [hfault] at hread
        exact absurd hread (by simp)
    cases happlied : p.applied with
    | none =>
      rw [happlied] at h
      exact absurd (h.symm.trans hrecorded) (by simp)
    | some a =>
      rw [happlied] at h
      have hbefore : a.now = before := Option.some.inj (h.1.symm.trans hrecorded)
      refine ⟨a, rfl, ?_⟩
      rw [hbefore]
      exact hc.views.activeAt_eq hstore hsame

/-- The last cycle of a run that does not fail leaves the script of an earlier plan in place, of a
moment with the same active policies as the present one. -/
theorem settled_run {start : σ} (hstart : (ledger start).recorded = none)
    {steps : List (CycleStep σ)} (hsteps : ∀ a ∈ steps, a.runner.Keeps ledger a.now)
    {c : CycleStep σ} {store : Store} (hc : c.On ledger store) (hstore : store.DistinctIds)
    {outcome : DispatchOutcome}
    (hok : (c.cycle interfaces (run interfaces start steps).state).1 = .ok outcome) :
    ∃ a plan, (run interfaces start (steps ++ [c])).applied = some a ∧
      (ledger (run interfaces start (steps ++ [c])).state).recorded = some a.now ∧
      (a.source.plan interfaces a.now).1 = .ok plan ∧
      (ledger (run interfaces start (steps ++ [c])).state).scripts.getLast? = some plan.script ∧
      store.activeAt a.now = store.activeAt c.now := by
  have hbefore : (run interfaces start steps).Recorded interfaces ledger :=
    recorded_run hstart hsteps
  have hafter := hbefore.next hc.keeps
  obtain ⟨a, happlied, hactive⟩ := hbefore.settled hc hstore hok
  rw [run_append_singleton]
  unfold Recorded at hafter
  rw [happlied] at hafter
  obtain ⟨hmoment, plan, hplan, hlast⟩ := hafter
  exact ⟨a, plan, happlied, hmoment, hplan, hlast, hactive⟩

end Progress

end TrafficWarden
