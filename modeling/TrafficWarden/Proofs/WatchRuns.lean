import TrafficWarden.Proofs.CatalogAcceptance
import TrafficWarden.Proofs.StoreViews
import TrafficWarden.Proofs.WatchLoop

/-!
# Runs of a watch

On a catalog without windows a watch tries its script at each tick until it is accepted once, and
then idles. A tick whose load or whose application fails is reported once, and nothing else ends a
watch than its cancellation.
-/

namespace TrafficWarden

open Calendar

variable {σ : Type}

/-- How many of some warnings report a failed cycle. -/
def failureCount (warnings : List Warning) : Nat :=
  warnings.countP (·.message = "dispatch cycle failed")

theorem failureCount_append (warnings more : List Warning) :
    failureCount (warnings ++ more) = failureCount warnings + failureCount more :=
  List.countP_append

section quiet

/-- Compiling policies reports no failed cycle. -/
theorem PolicySource.failureCount_compilePolicies (s : PolicySource) (policies : List Policy) :
    failureCount (s.compilePolicies policies).2 = 0 := by
  induction policies with
  | nil => rfl
  | cons p rest ih =>
    unfold compilePolicies
    split
    · exact ih
    · split
      · rw [failureCount, List.countP_cons_of_neg (by simp [Warning.message])]
        exact ih
      · rfl

theorem PolicySource.failureCount_plan (s : PolicySource) (interfaces : Interfaces)
    (moment : Timestamp) : failureCount (s.plan interfaces moment).2 = 0 := by
  unfold plan
  split
  · rfl
  · exact s.failureCount_compilePolicies _

/-- Loading a catalog reports no failed cycle. -/
theorem Catalog.failureCount_toStore (c : Catalog) : failureCount c.toStore.2 = 0 := by
  have hwarnings := c.forall₂_warns_toStore
  generalize c.leftOut = rows, c.toStore.2 = warnings at hwarnings
  induction hwarnings with
  | nil => rfl
  | cons hwarns _ ih =>
    rw [failureCount, List.countP_cons_of_neg]
    · exact ih
    · cases hwarns <;> simp [Warning.message]

end quiet

/-- How often a script was tried, and what is recorded. -/
structure Tally where
  attempts : Nat
  recorded : Option Timestamp
deriving DecidableEq, Repr

def Tally.add (t : Tally) (recorded : Option Timestamp) : Tally := ⟨t.attempts + 1, recorded⟩

/-- A runner gives the `n`-th script that it is to apply the `n`-th verdict, records the moment of
each that it accepts, and reports no failed cycle. -/
structure Runner.Answers (runner : Timestamp → Runner σ) (Fit : σ → Prop) (tally : σ → Tally)
    (verdict : Nat → Option Fault) : Prop where
  last : ∀ now {state}, Fit state → (runner now).last state = .ok (tally state).recorded
  accepted : ∀ now script {state}, Fit state → verdict (tally state).attempts = none →
    ∃ next warnings, (runner now).apply state script = (.ok (), next, warnings) ∧
      Fit next ∧ tally next = (tally state).add (some now) ∧ failureCount warnings = 0
  refused : ∀ now script {state fault}, Fit state → verdict (tally state).attempts = some fault →
    ∃ next warnings, (runner now).apply state script = (.error fault, next, warnings) ∧
      Fit next ∧ tally next = (tally state).add (tally state).recorded ∧ failureCount warnings = 0

namespace Recording

def tally (r : Recording) : Tally := ⟨r.attempts, r.recorded⟩

/-- The verdicts of a recording runner that is to fail some times first. -/
def verdict (failures n : Nat) : Option Fault := if n < failures then some refusal else none

/-- A recording of a runner that was to fail some times first, and whose record can be read. -/
structure Fit (failures : Nat) (r : Recording) : Prop where
  readable : r.unreadable = false
  failures : r.failures = failures - r.attempts

theorem answers_runner (failures : Nat) :
    Runner.Answers runner (Fit failures) tally (verdict failures) where
  last now {r} hr := by simp [runner, last, hr.readable, tally]
  accepted now script {r} hr hverdict := by
    have hle : ¬ r.attempts < failures := fun hlt =>
      absurd ((if_pos hlt).symm.trans hverdict) (by simp)
    have hleft : r.failures = 0 := by
      rw [hr.failures]
      omega
    refine ⟨{ r with
      scripts := r.scripts ++ [script]
      recorded := some now
      attempts := r.attempts + 1 }, [], by simp [runner, apply, hleft], ⟨hr.readable, ?_⟩, rfl, rfl⟩
    simp only [hleft]
    omega
  refused now script {r fault} hr hverdict := by
    obtain ⟨hlt, hfault⟩ := Option.ite_none_right_eq_some.mp hverdict
    obtain rfl := Option.some.inj hfault
    have hlt : r.attempts < failures := hlt
    have hleft : r.failures = failures - r.attempts - 1 + 1 := by
      rw [hr.failures]
      omega
    refine ⟨{ r with failures := failures - r.attempts - 1, attempts := r.attempts + 1 }, [],
      ?_, ⟨hr.readable, ?_⟩, rfl, rfl⟩
    · simp only [runner, apply]
      rw [hleft]
    · simp only
      omega

end Recording

/-- The loads of a catalog, some of which fail. -/
def Catalog.loads (c : Catalog) (failing : Nat → Option Fault) (n : Nat) :
    Except Fault PolicySource × List Warning :=
  match failing n with
  | some fault => (.error fault, [])
  | none => (.ok c.toStore.1.source, c.toStore.2)

/-- What can become of a state in a tick: its load fails, there is nothing to do, or a script is
refused or accepted. -/
inductive TickEffect (tally : σ → Tally) (verdict : Nat → Option Fault) (load : Option Fault)
    (state : σ) : σ → List Warning → Prop
  | unloaded {fault next warnings} (hload : load = some fault) (hnext : next = state)
    (hreport : failureCount warnings = 1) : TickEffect tally verdict load state next warnings
  | idle {before next warnings} (hload : load = none) (hnext : next = state)
    (hrecorded : (tally state).recorded = some before) (hquiet : failureCount warnings = 0) :
    TickEffect tally verdict load state next warnings
  | refused {fault next warnings} (hload : load = none) (hrecorded : (tally state).recorded = none)
    (hverdict : verdict (tally state).attempts = some fault)
    (hnext : tally next = (tally state).add none) (hreport : failureCount warnings = 1) :
    TickEffect tally verdict load state next warnings
  | accepted {now next warnings} (hload : load = none) (hrecorded : (tally state).recorded = none)
    (hverdict : verdict (tally state).attempts = none)
    (hnext : tally next = (tally state).add (some now)) (hquiet : failureCount warnings = 0) :
    TickEffect tally verdict load state next warnings

section tick

variable {c : Catalog} {failing : Nat → Option Fault} {runner : Timestamp → Runner σ}
  {Fit : σ → Prop} {tally : σ → Tally} {verdict : Nat → Option Fault}
  {clock : Nat → Timestamp} {interfaces : Interfaces}

/-- Without windows a cycle applies its script only if nothing is recorded. -/
theorem PolicySource.cycle_of_not_temporal {s : PolicySource} (hs : s.hasTimeWindows = .ok false)
    {runner : Runner σ} {state : σ} {last : Option Timestamp}
    (hlast : runner.last state = .ok last) (interfaces : Interfaces) (now : Timestamp) :
    s.cycle runner interfaces now false state =
      if last.isNone then s.applyPlan runner interfaces now state
      else (.ok (.skipped .idle), state, []) := by
  rw [cycle, hlast, status_of_not_temporal hs]
  cases last <;> rfl

theorem PolicySource.applyPlan_of_plan {s : PolicySource} {now : Timestamp} {plan : Plan}
    {warnings : List Warning} (h : s.plan interfaces now = (.ok plan, warnings))
    (runner : Runner σ) (state : σ) :
    s.applyPlan runner interfaces now state =
      match runner.apply state plan.script with
      | (.error fault, next, more) => (.error fault, next, warnings ++ more)
      | (.ok (), next, more) =>
        (.ok (.applied plan.policies.length plan.ruleCount), next, warnings ++ more) := by
  rewrite [applyPlan, h]
  rfl

/-- A tick whose load does not fail reports what was left out of the catalog, and then its cycle. -/
theorem Catalog.tick_loads (c : Catalog) {k : Nat} (hload : failing k = none) (state : σ) :
    Watch.tick ⟨c.loads failing, clock, runner, interfaces⟩ k state =
      let (result, next, more) :=
        c.toStore.1.source.cycle (runner (clock k)) interfaces (clock k) false state
      (next, c.toStore.2 ++ more ++ Watch.report result) := by
  simp only [Watch.tick, Watch.attempt, Catalog.loads, hload]

/-- With nothing recorded, a tick whose load does not fail applies a script. -/
theorem exists_tick_eq (hc : c.toStore.1.source.hasTimeWindows = .ok false) {k : Nat}
    (hload : failing k = none) {state : σ} (hlast : (runner (clock k)).last state = .ok none) :
    ∃ script outcome warnings, failureCount warnings = 0 ∧
      Watch.tick ⟨c.loads failing, clock, runner, interfaces⟩ k state =
        let (result, next, more) := (runner (clock k)).apply state script
        (next, warnings ++ more ++ Watch.report (result.map fun _ => outcome)) := by
  obtain ⟨plan, hplan⟩ := c.toStore.1.exists_plan interfaces (clock k)
  have hplanned := c.toStore.1.source.failureCount_plan interfaces (clock k)
  rcases hboth : c.toStore.1.source.plan interfaces (clock k) with ⟨result, warnings⟩
  rw [hboth] at hplan hplanned
  obtain rfl : result = .ok plan := hplan
  refine ⟨plan.script, .applied plan.policies.length plan.ruleCount, c.toStore.2 ++ warnings,
    ?_, ?_⟩
  · rw [failureCount_append, c.failureCount_toStore, Nat.zero_add]
    exact hplanned
  · rw [c.tick_loads hload, PolicySource.cycle_of_not_temporal hc hlast, Option.isNone_none,
      if_pos rfl, PolicySource.applyPlan_of_plan hboth]
    rcases (runner (clock k)).apply state plan.script with ⟨_ | _, next, more⟩
    · simp only [Except.map, List.append_assoc]
    · simp only [Except.map, List.append_assoc]

/-- A tick of a watch on a catalog without windows. -/
theorem tick_effect (hc : c.toStore.1.source.hasTimeWindows = .ok false)
    (hrunner : Runner.Answers runner Fit tally verdict) (k : Nat) {state : σ} (hstate : Fit state) :
    let w : Watch σ := ⟨c.loads failing, clock, runner, interfaces⟩
    TickEffect tally verdict (failing k) state (w.tick k state).1 (w.tick k state).2 ∧
      Fit (w.tick k state).1 := by
  intro w
  have hlast := hrunner.last (clock k) hstate
  cases hload : failing k with
  | some fault =>
    have htick : w.tick k state = (state, [.cycleFailed fault]) := by
      simp [w, Watch.tick, Watch.attempt, Catalog.loads, hload, Watch.report]
    rw [htick]
    exact ⟨.unloaded rfl rfl (by simp [failureCount, Warning.message]), hstate⟩
  | none =>
    cases hrecorded : (tally state).recorded with
    | some before =>
      rw [hrecorded] at hlast
      rw [c.tick_loads hload, PolicySource.cycle_of_not_temporal hc hlast]
      refine ⟨.idle rfl rfl hrecorded ?_, hstate⟩
      simp [Watch.report, c.failureCount_toStore]
    | none =>
      rw [hrecorded] at hlast
      obtain ⟨script, outcome, warnings, hwarnings, htick⟩ := exists_tick_eq hc hload hlast
      rw [htick]
      cases hverdict : verdict (tally state).attempts with
      | none =>
        obtain ⟨next, more, happly, hfit, htally, hmore⟩ :=
          hrunner.accepted (clock k) script hstate hverdict
        rw [happly]
        refine ⟨.accepted rfl hrecorded hverdict htally ?_, hfit⟩
        simp only [failureCount_append, hwarnings, hmore]
        rfl
      | some fault =>
        obtain ⟨next, more, happly, hfit, htally, hmore⟩ :=
          hrunner.refused (clock k) script hstate hverdict
        rw [hrecorded] at htally
        rw [happly]
        refine ⟨.refused rfl hrecorded hverdict htally ?_, hfit⟩
        simp only [failureCount_append, hwarnings, hmore]
        simp [failureCount, Watch.report, Except.map, Warning.message]

end tick

namespace Turn

variable (tally : σ → Tally) (verdict : Nat → Option Fault) (t : Turn σ)

/-- Whether a script is tried in a turn. -/
def tries : Bool := (tally t.before).attempts < (tally t.after).attempts

def isRefused : Bool := t.tries tally && (verdict (tally t.before).attempts).isSome

def succeeds : Bool := t.tries tally && (verdict (tally t.before).attempts).isNone

/-- What became of the state in a turn. -/
def Effect (load : Option Fault) : Prop :=
  TickEffect tally verdict load t.before t.after t.warnings

section effect

variable {tally verdict} {t : Turn σ} {load : Option Fault}

theorem tries_eq_false (h : t.after = t.before) : t.tries tally = false := by simp [tries, h]

theorem tries_eq_true {recorded : Option Timestamp}
    (h : tally t.after = (tally t.before).add recorded) : t.tries tally = true := by
  simp [tries, h, Tally.add]

/-- A script is tried if the load does not fail and nothing is recorded. -/
theorem Effect.tries_iff (h : t.Effect tally verdict load) :
    t.tries tally = true ↔ load = none ∧ (tally t.before).recorded = none := by
  cases h with
  | unloaded hload hnext hreport => simp [tries_eq_false hnext, hload]
  | idle hload hnext hrecorded hquiet => simp [tries_eq_false hnext, hrecorded]
  | refused hload hrecorded hverdict hnext hreport => simp [tries_eq_true hnext, hload, hrecorded]
  | accepted hload hrecorded hverdict hnext hquiet => simp [tries_eq_true hnext, hload, hrecorded]

theorem Effect.attempts_eq (h : t.Effect tally verdict load) :
    (tally t.after).attempts = (tally t.before).attempts + (t.tries tally).toNat := by
  cases h with
  | unloaded hload hnext hreport => simp [tries_eq_false hnext, hnext]
  | idle hload hnext hrecorded hquiet => simp [tries_eq_false hnext, hnext]
  | refused hload hrecorded hverdict hnext hreport => simp [tries_eq_true hnext, hnext, Tally.add]
  | accepted hload hrecorded hverdict hnext hquiet => simp [tries_eq_true hnext, hnext, Tally.add]

/-- A script that is accepted is recorded, and nothing else is. -/
theorem Effect.recorded_iff (h : t.Effect tally verdict load) :
    (tally t.after).recorded = none ↔
      (tally t.before).recorded = none ∧ t.succeeds tally verdict = false := by
  cases h with
  | unloaded hload hnext hreport => simp [succeeds, tries_eq_false hnext, hnext]
  | idle hload hnext hrecorded hquiet => simp [hnext, hrecorded]
  | refused hload hrecorded hverdict hnext hreport =>
    simp [succeeds, hnext, hrecorded, hverdict, Tally.add]
  | accepted hload hrecorded hverdict hnext hquiet =>
    simp [succeeds, tries_eq_true hnext, hnext, hverdict, Tally.add]

/-- A failed cycle is reported once, and no other. -/
theorem Effect.failureCount_eq (h : t.Effect tally verdict load) :
    failureCount t.warnings = (load.isSome || t.isRefused tally verdict).toNat := by
  cases h with
  | unloaded hload hnext hreport => simp [hload, hreport]
  | idle hload hnext hrecorded hquiet => simp [isRefused, tries_eq_false hnext, hload, hquiet]
  | refused hload hrecorded hverdict hnext hreport =>
    simp [isRefused, tries_eq_true hnext, hverdict, hreport]
  | accepted hload hrecorded hverdict hnext hquiet => simp [isRefused, hload, hverdict, hquiet]

end effect

end Turn

namespace Watch

section run

variable {tally : σ → Tally} {verdict : Nat → Option Fault} {w : Watch σ} {interval : Nat}
  {failing : Nat → Option Fault} {Fit : σ → Prop}

/-- Every tick of a watch has its effect. -/
def Effective (w : Watch σ) (Fit : σ → Prop) (tally : σ → Tally)
    (verdict failing : Nat → Option Fault) : Prop :=
  ∀ k state, Fit state →
    TickEffect tally verdict (failing k) state (w.tick k state).1 (w.tick k state).2 ∧
      Fit (w.tick k state).1

/-- Each of successive turns has its effect. If nothing was recorded at first, then nothing is
before a turn as long as no script was accepted in an earlier one. -/
theorem Successive.effects (hw : w.Effective Fit tally verdict failing) {k : Nat} {state : σ}
    {ts : List (Turn σ)} (h : w.Successive interval k state ts) (hstate : Fit state) {j : Nat}
    {t : Turn σ} (ht : ts[j]? = some t) :
    t.Effect tally verdict (failing (k + j)) ∧
      ((tally t.before).recorded = none ↔ (tally state).recorded = none ∧
        ∀ i < j, ∀ u, ts[i]? = some u → u.succeeds tally verdict = false) := by
  induction h generalizing j with
  | nil k state => exact absurd ht (by simp)
  | @cons k state after warnings ts htick hrest ih =>
    obtain ⟨heffect, hafter⟩ := hw k state hstate
    rw [htick] at heffect hafter
    cases j with
    | zero =>
      obtain rfl := Option.some.inj ht
      exact ⟨heffect, by simp⟩
    | succ j =>
      rw [List.getElem?_cons_succ] at ht
      obtain ⟨hlater, hrecorded⟩ := ih hafter ht
      have hfirst :=
        Turn.Effect.recorded_iff (t := ⟨k * interval, k, state, after, warnings⟩) heffect
      rw [Nat.add_right_comm, Nat.add_assoc] at hlater
      refine ⟨hlater, ?_⟩
      rw [hrecorded, hfirst, and_assoc, Nat.forall_lt_succ_left]
      simp

theorem countP_tries (ts : List (Turn σ)) :
    ts.countP (·.tries tally) =
      ts.countP (·.isRefused tally verdict) + ts.countP (·.succeeds tally verdict) := by
  induction ts with
  | nil => rfl
  | cons t ts ih =>
    rw [List.countP_cons, List.countP_cons, List.countP_cons, ih, Turn.isRefused, Turn.succeeds]
    cases t.tries tally <;> cases verdict (tally t.before).attempts <;> simp <;> omega

theorem countP_le_one {α : Type} {P : α → Bool} {items : List α}
    (h : items.Pairwise fun a b => P a = true → P b = false) : items.countP P ≤ 1 := by
  induction h with
  | nil => exact Nat.zero_le _
  | @cons a items ha _ ih =>
    rw [List.countP_cons]
    split
    · rename_i hPa
      have hnone : items.countP P = 0 :=
        List.countP_eq_zero.mpr fun b hb => by simp [ha b hb hPa]
      omega
    · exact ih

section unrecorded

variable {start : σ} {ts : List (Turn σ)} (hw : w.Effective Fit tally verdict failing)
  (h : w.Successive interval 0 start ts) (hstart : Fit start)
  (hnone : (tally start).recorded = none)

include hw h hstart hnone

/-- From a state with nothing recorded, a script is tried on each load that does not fail as long as
none was accepted. -/
theorem Successive.tries_iff {k : Nat} {t : Turn σ} (ht : ts[k]? = some t) :
    t.tries tally = true ↔
      failing k = none ∧ ∀ j < k, ∀ u, ts[j]? = some u → u.succeeds tally verdict = false := by
  obtain ⟨heffect, hrecorded⟩ := h.effects hw hstart ht
  rw [heffect.tries_iff, hrecorded, Nat.zero_add, iff_true_intro hnone, true_and]

/-- No script is tried after one was accepted. -/
theorem Successive.countP_succeeds_le_one : ts.countP (·.succeeds tally verdict) ≤ 1 := by
  refine countP_le_one (List.pairwise_iff_getElem.mpr fun j k hj hk hjk hsucceeds => ?_)
  refine Bool.eq_false_iff.mpr fun hagain => ?_
  have htries : ts[k].tries tally = true := (Bool.and_eq_true_iff.mp hagain).1
  have hnotyet := (h.tries_iff hw hstart hnone (List.getElem?_eq_getElem hk)).mp htries
  have hfailed := hnotyet.2 j hjk _ (List.getElem?_eq_getElem hj)
  exact absurd hsucceeds (by simp [hfailed])

end unrecorded

/-- A loop tries a script on each load that does not fail until one is accepted, reports what
failed, and goes on until it is cancelled. -/
structure Retries (w : Watch σ) (interval : Nat) (cancel : Option Nat) (count : Nat)
    (tally : σ → Tally) (verdict failing : Nat → Option Fault) (start : σ) (ts : List (Turn σ))
    (ended : Bool) : Prop where
  ran : (w.run ts.length 0 start).1 = ts.map Turn.tick
  timed : ∀ k t, ts[k]? = some t → t.number = k ∧ t.time = k * interval
  tried : ∀ k t, ts[k]? = some t → (t.tries tally = true ↔
    failing k = none ∧ ∀ j < k, ∀ u, ts[j]? = some u → u.succeeds tally verdict = false)
  attempts : ∀ t ∈ ts,
    (tally t.after).attempts = (tally t.before).attempts + (t.tries tally).toNat
  failures : ts.countP (·.tries tally) =
    ts.countP (·.isRefused tally verdict) + ts.countP (·.succeeds tally verdict)
  successes : ts.countP (·.succeeds tally verdict) ≤ 1
  reported : ∀ k t, ts[k]? = some t →
    failureCount t.warnings = ((failing k).isSome || t.isRefused tally verdict).toNat
  cancelled : ended = true → ∃ stop, cancel = some stop ∧ stop ≤ ts.length * interval
  running : ended = false → ts.length = count
  length : ∀ stop, cancel = some stop → ts.length = min count (tickCount interval stop)
  unstarted : cancel = some 0 → ts = []

/-- From a runner that recorded nothing, a watch on a catalog without windows retries until it
succeeds, whichever of its loads and applications fail, and never ends by itself. -/
theorem retries_until_success (hinterval : 1 ≤ interval) {c : Catalog}
    (hc : c.toStore.1.source.hasTimeWindows = .ok false) {runner : Timestamp → Runner σ}
    (hrunner : Runner.Answers runner Fit tally verdict) {start : σ} (hstart : Fit start)
    (hnone : (tally start).recorded = none) (failing : Nat → Option Fault)
    (clock : Nat → Timestamp) (interfaces : Interfaces) (cancel : Option Nat) (count : Nat) :
    let w : Watch σ := ⟨c.loads failing, clock, runner, interfaces⟩
    w.Retries interval cancel count tally verdict failing start
      (w.turns interval cancel count (.start start)).1
      (w.turns interval cancel count (.start start)).2 := by
  intro w
  have hw : w.Effective Fit tally verdict failing := fun k state hstate =>
    tick_effect hc hrunner k hstate
  have hloops : Loops w interval cancel count 0 start
      (w.turns interval cancel count (.start start)).1
      (w.turns interval cancel count (.start start)).2 := loops_turns (awaits_start start) count
  have hlength : ∀ stop, cancel = some stop →
      (w.turns interval cancel count (.start start)).1.length =
        min count (tickCount interval stop) := by
    rintro stop rfl
    exact length_turns hinterval stop count start
  generalize (w.turns interval cancel count (.start start)).1 = ts at hloops hlength ⊢
  generalize (w.turns interval cancel count (.start start)).2 = ended at hloops ⊢
  have heffect : ∀ (k : Nat) (t : Turn σ), ts[k]? = some t → t.Effect tally verdict (failing k) :=
    fun k t ht => Nat.zero_add k ▸ (hloops.successive.effects hw hstart ht).1
  refine ⟨hloops.successive.run, fun k t ht => ?_,
    fun k t ht => hloops.successive.tries_iff hw hstart hnone ht, fun t ht => ?_, countP_tries ts,
    hloops.successive.countP_succeeds_le_one hw hstart hnone,
    fun k t ht => (heffect k t ht).failureCount_eq, ?_, hloops.running, hlength, fun hzero => ?_⟩
  · obtain ⟨hnumber, htime, -⟩ := hloops.successive.get ht
    rw [Nat.zero_add] at hnumber htime
    exact ⟨hnumber, htime⟩
  · obtain ⟨k, hk⟩ := List.getElem?_of_mem ht
    exact (heffect k t hk).attempts_eq
  · have hcancelled := hloops.cancelled
    rwa [Nat.zero_add] at hcancelled
  · have hlength := hlength 0 hzero
    have hnoticks : tickCount interval 0 = 0 := Nat.div_eq_of_lt (by omega)
    rw [hnoticks, Nat.min_zero] at hlength
    exact List.length_eq_zero_iff.mp hlength

/-- The second load fails and so do the first two applications, so that the fourth tick succeeds. -/
theorem retries_until_success_of_refusals :
    let c : Catalog := { (∅ : Catalog) with
      policies := [⟨1, "guests", none, true, none, some 512, none⟩] }
    let failing (n : Nat) : Option Fault :=
      if n = 1 then some (.storeUnavailable "catalog missing") else none
    let moment : Timestamp := ⟨⟨2024, 3, 5, by decide⟩, ⟨10, 0, 0⟩⟩
    let w : Watch Recording := ⟨c.loads failing, fun _ => moment, Recording.runner, .standard⟩
    let start : Recording := { Recording.empty with failures := 2 }
    c.toStore.1.source.hasTimeWindows = .ok false ∧
      w.Retries 60 (some 350) 10 Recording.tally (Recording.verdict 2) failing start
        (w.turns 60 (some 350) 10 (.start start)).1
        (w.turns 60 (some 350) 10 (.start start)).2 := by
  intro c failing moment w start
  have hc : c.toStore.1.source.hasTimeWindows = .ok false := by decide +kernel
  exact ⟨hc, retries_until_success (by decide) hc (Recording.answers_runner 2) ⟨rfl, rfl⟩ rfl
    failing (fun _ => moment) .standard (some 350) 10⟩

end run

end Watch

end TrafficWarden
