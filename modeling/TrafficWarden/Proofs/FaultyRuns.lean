import TrafficWarden.Dispatch.SeparateReads
import TrafficWarden.Proofs.CycleRuns

/-!
# Runs of cycles with faulty reads

Every read of a cycle gives what the store holds, or fails in any way. If the cycle does not fail,
then only reads for the bag of a policy can have failed, in such a way that the cycle skipped the
policy with a warning. So the plan is that of the store without the skipped policies.
-/

namespace TrafficWarden

open Calendar

def Warning.skipped? : Warning → Option EntityId
  | .policySkipped id _ _ => some id
  | _ => none

/-- The policies that are skipped with a warning. -/
def skippedIds (warnings : List Warning) : List EntityId := warnings.filterMap Warning.skipped?

@[simp] theorem skippedIds_cons (id : EntityId) (name : String) (fault : Fault)
    (warnings : List Warning) :
    skippedIds (.policySkipped id name fault :: warnings) = id :: skippedIds warnings := rfl

def Plan.without (p : Plan) (ids : List EntityId) : Plan :=
  { p with policies := p.policies.filter (·.policy.id ∉ ids) }

/-- Every read of a cycle is one of a store, and may fail on its own. -/
structure CycleReads.Answer (r : CycleReads) (store : Store) : Prop where
  windows : r.windows.Answers store
  recorded : r.recorded.Answers store
  present : r.present.Answers store
  planned : r.planned.Answers store
  bags : ∀ i n, (r.bags i n).Answers store

theorem PolicySource.Answers.answer {s : PolicySource} {store : Store} (h : s.Answers store) :
    (s : CycleReads).Answer store :=
  ⟨h, h, h, h, fun _ _ => h⟩

namespace CycleReads

variable {store : Store}

theorem collect_eq {reads : Nat → PolicySource} (h : ∀ n, (reads n).Answers store)
    {b : ParameterBag} {targets : List Target} {bag : ParameterBag}
    (hok : collect reads b targets = .ok bag) :
    ParameterBag.collect store.source.trafficClass b targets = .ok bag := by
  induction targets generalizing reads b with
  | nil => exact hok
  | cons t rest ih =>
    unfold collect at hok
    unfold ParameterBag.collect
    cases ht : t.trafficClass with
    | none =>
      rw [ht] at hok
      exact ih h hok
    | some id =>
      cases hread : (reads 0).trafficClass id with
      | error fault =>
        simp only [ht, hread] at hok
        exact absurd hok (by simp)
      | ok c =>
        simp only [ht, hread] at hok
        simp only [(h 0).class_eq hread]
        exact ih (fun n => h (n + 1)) hok

/-- A bag whose reads all succeed is that of the store. -/
theorem bag_eq {reads : Nat → PolicySource} (h : ∀ n, (reads n).Answers store) {id : EntityId}
    {b : ParameterBag} (hok : bag reads id = .ok b) : store.source.bag id = .ok b := by
  obtain ⟨targets, htargets, hcollect⟩ := bind_eq_ok_iff.mp hok
  rw [(h 0).targets_eq htargets] at hcollect
  exact collect_eq (fun n => h (n + 1)) hcollect

end CycleReads

/-- Only policies that were to be compiled are compiled, and each of them has a bag. -/
theorem PolicySource.mem_of_compilePolicies {s : PolicySource} {policies : List Policy}
    {compiled : List CompiledPolicy} (h : (s.compilePolicies policies).1 = .ok compiled)
    {c : CompiledPolicy} (hc : c ∈ compiled) :
    c.policy ∈ policies ∧ ∃ b, s.bag c.policy.id = .ok b := by
  induction policies generalizing compiled with
  | nil =>
    rw [← Except.ok.inj h] at hc
    exact absurd hc List.not_mem_nil
  | cons p rest ih =>
    unfold compilePolicies at h
    cases hbag : s.bag p.id with
    | ok b =>
      simp only [hbag] at h
      obtain ⟨tail, hrest, rfl⟩ := map_eq_ok_iff.mp h
      rcases List.mem_cons.mp hc with rfl | hc
      · exact ⟨List.mem_cons_self, b, hbag⟩
      · exact ⟨List.mem_cons_of_mem _ (ih hrest hc).1, (ih hrest hc).2⟩
    | error fault =>
      cases hlocal : fault.isLocal with
      | true =>
        simp only [hbag, hlocal, if_true] at h
        exact ⟨List.mem_cons_of_mem _ (ih h hc).1, (ih h hc).2⟩
      | false =>
        simp only [hbag, hlocal] at h
        exact absurd h (by simp)

namespace CycleReads

variable {store : Store}

theorem mem_of_mem_skippedIds {reads : Nat → Nat → PolicySource} {policies : List Policy}
    {id : EntityId} (h : id ∈ skippedIds (compilePolicies reads policies).2) :
    id ∈ policies.map (·.id) := by
  induction policies generalizing reads with
  | nil => exact absurd h List.not_mem_nil
  | cons p rest ih =>
    unfold compilePolicies at h
    rw [List.map_cons, List.mem_cons]
    cases hbag : bag (reads 0) p.id with
    | ok b =>
      simp only [hbag] at h
      exact .inr (ih h)
    | error fault =>
      cases hlocal : fault.isLocal with
      | true =>
        simp only [hbag, hlocal, if_true, skippedIds_cons, List.mem_cons] at h
        exact h.imp_right ih
      | false =>
        simp only [hbag, hlocal] at h
        exact absurd h List.not_mem_nil

/-- A store compiles a policy before the others, unless it has no bag for it. -/
theorem compilePolicies_cons {p : Policy} {rest : List Policy} {all tail : List CompiledPolicy}
    (hall : (store.source.compilePolicies (p :: rest)).1 = .ok all)
    (htail : (store.source.compilePolicies rest).1 = .ok tail) :
    (∃ b, store.source.bag p.id = .ok b ∧ all = .compile p b :: tail) ∨
      ∃ fault, store.source.bag p.id = .error fault ∧ all = tail := by
  unfold PolicySource.compilePolicies at hall
  cases hbag : store.source.bag p.id with
  | ok b =>
    simp only [hbag, htail] at hall
    exact .inl ⟨b, rfl, (Except.ok.inj hall).symm⟩
  | error fault =>
    simp only [hbag, Store.bag_source_isLocal hbag, if_true, htail] at hall
    exact .inr ⟨fault, rfl, (Except.ok.inj hall).symm⟩

/-- A compilation leaves out exactly the policies that it skips with a warning, of those that the
store compiles. -/
theorem compilePolicies_eq {reads : Nat → Nat → PolicySource}
    (h : ∀ i n, (reads i n).Answers store) {policies : List Policy}
    (hids : (policies.map (·.id)).Nodup) {compiled all : List CompiledPolicy}
    (hok : (compilePolicies reads policies).1 = .ok compiled)
    (hall : (store.source.compilePolicies policies).1 = .ok all) :
    compiled = all.filter (·.policy.id ∉ skippedIds (compilePolicies reads policies).2) := by
  induction policies generalizing reads compiled all with
  | nil =>
    rw [← Except.ok.inj hok, ← Except.ok.inj hall]
    rfl
  | cons p rest ih =>
    rw [List.map_cons, List.nodup_cons] at hids
    have hrestReads : ∀ i n, (reads (i + 1) n).Answers store := fun i n => h (i + 1) n
    obtain ⟨tail, htail⟩ := store.exists_compilePolicies rest
    have hcases := compilePolicies_cons hall htail
    unfold compilePolicies at hok ⊢
    cases hbag : bag (reads 0) p.id with
    | ok b =>
      simp only [hbag] at hok ⊢
      obtain ⟨compiledRest, hcompiled, rfl⟩ := map_eq_ok_iff.mp hok
      have hkept : (CompiledPolicy.compile p b).policy.id ∉
          skippedIds (compilePolicies (fun i => reads (i + 1)) rest).2 :=
        fun hp => hids.1 (mem_of_mem_skippedIds hp)
      have hstore := bag_eq (h 0) hbag
      rcases hcases with ⟨b', hb', rfl⟩ | ⟨fault, hfault, -⟩
      · obtain rfl : b = b' := Except.ok.inj (hstore.symm.trans hb')
        rw [List.filter_cons, if_pos (decide_eq_true hkept),
          ← ih hrestReads hids.2 hcompiled htail]
      · exact absurd (hstore.symm.trans hfault) (by simp)
    | error fault =>
      cases hlocal : fault.isLocal with
      | false =>
        simp only [hbag, hlocal] at hok
        exact absurd hok (by simp)
      | true =>
        simp only [hbag, hlocal, if_true] at hok ⊢
        -- the policy is left out of what the store compiles, whether it compiles there or not
        have hfull : all.filter (·.policy.id ∉ skippedIds (.policySkipped p.id p.name fault ::
            (compilePolicies (fun i => reads (i + 1)) rest).2)) =
            tail.filter (·.policy.id ∉ skippedIds (.policySkipped p.id p.name fault ::
              (compilePolicies (fun i => reads (i + 1)) rest).2)) := by
          rcases hcases with ⟨b, -, rfl⟩ | ⟨-, -, rfl⟩
          · exact List.filter_cons_of_neg (by simp [CompiledPolicy.compile])
          · rfl
        rw [hfull, ih hrestReads hids.2 hok htail]
        refine List.filter_congr fun c hc => ?_
        have hne : c.policy.id ≠ p.id := fun heq =>
          hids.1 (heq ▸ List.mem_map_of_mem (PolicySource.mem_of_compilePolicies htail hc).1)
        simp [hne]

end CycleReads

theorem Store.DistinctIds.activeAt {store : Store} (h : store.DistinctIds) (moment : Timestamp) :
    ((store.activeAt moment).map (·.id)).Nodup :=
  h.sublist (List.filter_sublist.map _)

/-- Without policies that do not compile anyway, a plan stays as it is. -/
theorem Plan.without_eq_self {s : PolicySource} {interfaces : Interfaces} {moment : Timestamp}
    {plan : Plan} (h : (s.plan interfaces moment).1 = .ok plan) {ids : List EntityId}
    (hids : ∀ id ∈ ids, ∀ b, s.bag id ≠ .ok b) : plan.without ids = plan := by
  unfold PolicySource.plan at h
  cases hactive : s.active moment with
  | error fault =>
    rw [hactive] at h
    exact absurd h (by simp)
  | ok active =>
    simp only [hactive] at h
    obtain ⟨compiled, hcompiled, rfl⟩ := map_eq_ok_iff.mp h
    have hkept : ∀ c ∈ compiled, decide (c.policy.id ∉ ids) = true := by
      intro c hc
      obtain ⟨b, hb⟩ := (PolicySource.mem_of_compilePolicies hcompiled hc).2
      exact decide_eq_true fun hid => hids _ hid b hb
    exact congrArg (Plan.mk interfaces moment) (List.filter_eq_self.mpr hkept)

namespace CycleReads

variable {store : Store} {r : CycleReads}

/-- A plan of answered reads is that of the store without the policies that are skipped. -/
theorem Answer.plan_eq (h : r.Answer store) (hstore : store.DistinctIds) {interfaces : Interfaces}
    {moment : Timestamp} {plan all : Plan} (hok : (r.plan interfaces moment).1 = .ok plan)
    (hall : (store.source.plan interfaces moment).1 = .ok all) :
    plan = all.without (skippedIds (r.plan interfaces moment).2) := by
  unfold CycleReads.plan at hok ⊢
  cases hactive : r.planned.active moment with
  | error fault =>
    rw [hactive] at hok
    exact absurd hok (by simp)
  | ok active =>
    simp only [hactive] at hok ⊢
    obtain ⟨compiled, hcompiled, rfl⟩ := map_eq_ok_iff.mp hok
    unfold PolicySource.plan at hall
    simp only [Store.active_source] at hall
    obtain ⟨full, hfull, rfl⟩ := map_eq_ok_iff.mp hall
    have hnodup := hstore.activeAt moment
    rw [← h.planned.active_eq hactive] at hfull hnodup
    exact congrArg (Plan.mk interfaces moment) (compilePolicies_eq h.bags hnodup hcompiled hfull)

/-- A decision that finds nothing to do compared the recorded moment with the present one, and the
same policies of the store are active at both. -/
theorem Answer.idle_of_status (h : r.Answer store) (hstore : store.DistinctIds)
    {last : Except Fault (Option Timestamp)} {now : Timestamp} {status : DispatchStatus}
    (hok : r.status last now = .ok status) (hidle : status.state.needsDispatch = false) :
    status.state = .idle ∧ ∃ before, last = .ok (some before) ∧
      store.activeAt before = store.activeAt now := by
  obtain ⟨recorded, hrecorded, hok⟩ := bind_eq_ok_iff.mp hok
  obtain ⟨temporal, htemporal, hok⟩ := bind_eq_ok_iff.mp hok
  cases recorded with
  | none =>
    rw [← Except.ok.inj hok] at hidle
    exact absurd hidle (by simp [decideState, DispatchState.needsDispatch])
  | some before =>
    cases temporal with
    | false =>
      rw [← Except.ok.inj hok]
      exact ⟨rfl, before, hrecorded,
        Store.activeAt_eq_of_not_hasWindows (h.windows.not_hasWindows htemporal) before now⟩
    | true =>
      simp only [if_true] at hok
      obtain ⟨previous, hprevious, hok⟩ := bind_eq_ok_iff.mp hok
      obtain ⟨current, hcurrent, hok⟩ := bind_eq_ok_iff.mp hok
      rw [← Except.ok.inj hok] at hidle ⊢
      cases hsets : setChanged previous current with
      | true =>
        rw [hsets] at hidle
        exact absurd hidle (by simp [decideState, DispatchState.needsDispatch])
      | false =>
        rw [h.recorded.activeIds_eq hprevious, h.present.activeIds_eq hcurrent] at hsets
        exact ⟨rfl, before, hrecorded, hstore.activeAt_eq hsets⟩

variable {σ : Type}

/-- What a cycle with faulty reads can do: its result, and the state after it. -/
inductive Effect (store : Store) (r : CycleReads) (runner : Runner σ) (interfaces : Interfaces)
    (now : Timestamp) (state : σ) : Except Fault DispatchOutcome → σ → Prop where
  | failed {fault} : Effect store r runner interfaces now state (.error fault) state
  | skipped {before} (last : runner.last state = .ok (some before))
      (same : store.activeAt before = store.activeAt now) :
      Effect store r runner interfaces now state (.ok (.skipped .idle)) state
  | refused {script fault next warnings}
      (refusal : runner.apply state script = (.error fault, next, warnings)) :
      Effect store r runner interfaces now state (.error fault) next
  | applied {plan next warnings} (planned : (r.plan interfaces now).1 = .ok plan)
      (success : runner.apply state plan.script = (.ok (), next, warnings)) :
      Effect store r runner interfaces now state
        (.ok (.applied plan.policies.length plan.ruleCount)) next

theorem applyPlan_effect (store : Store) (r : CycleReads) (runner : Runner σ)
    (interfaces : Interfaces) (now : Timestamp) (state : σ) :
    Effect store r runner interfaces now state (r.applyPlan runner interfaces now state).1
      (r.applyPlan runner interfaces now state).2.1 := by
  unfold applyPlan
  rcases hplan : r.plan interfaces now with ⟨fault | plan, warnings⟩
  · exact .failed
  · rcases happly : runner.apply state plan.script with ⟨fault | ⟨⟩, next, more⟩
    · simp only [happly]
      exact .refused happly
    · simp only [happly]
      exact .applied (congrArg Prod.fst hplan) happly

theorem Answer.cycle_effect (h : r.Answer store) (hstore : store.DistinctIds) (runner : Runner σ)
    (interfaces : Interfaces) (now : Timestamp) (force : Bool) (state : σ) :
    Effect store r runner interfaces now state (r.cycle runner interfaces now force state).1
      (r.cycle runner interfaces now force state).2.1 := by
  unfold cycle
  cases force with
  | true => exact applyPlan_effect store r runner interfaces now state
  | false =>
    cases hstatus : r.status (runner.last state) now with
    | error fault => exact .failed
    | ok status =>
      cases hneeds : status.state.needsDispatch with
      | true =>
        simp only [hneeds, if_true]
        exact applyPlan_effect store r runner interfaces now state
      | false =>
        obtain ⟨hidle, before, hlast, hsame⟩ := h.idle_of_status hstore hstatus hneeds
        simp only [hidle]
        exact .skipped hlast hsame

end CycleReads

/-- One cycle of a run: its reads, what applies its script, its time, and whether it is forced. -/
structure FaultyCycle (σ : Type) where
  reads : CycleReads
  runner : Runner σ
  now : Timestamp
  force : Bool

namespace FaultyCycle

variable {σ : Type} (interfaces : Interfaces) (ledger : σ → Ledger)

/-- The result of a cycle, and the state after it. -/
def cycle (c : FaultyCycle σ) (state : σ) : Except Fault DispatchOutcome × σ :=
  let (result, next, _) := c.reads.cycle c.runner interfaces c.now c.force state
  (result, next)

/-- The policies that a cycle skips because some read for their bag fails. -/
def skipped (c : FaultyCycle σ) : List EntityId := skippedIds (c.reads.plan interfaces c.now).2

/-- A cycle on a store. Every read of it may fail, and so may the application of its script. -/
structure On (c : FaultyCycle σ) (store : Store) : Prop where
  answer : c.reads.Answer store
  keeps : c.runner.Keeps ledger c.now

variable {interfaces ledger}

theorem On.effect {c : FaultyCycle σ} {store : Store} (h : c.On ledger store)
    (hstore : store.DistinctIds) (state : σ) :
    CycleReads.Effect store c.reads c.runner interfaces c.now state (c.cycle interfaces state).1
      (c.cycle interfaces state).2 :=
  h.answer.cycle_effect hstore c.runner interfaces c.now c.force state

end FaultyCycle

/-- A run of cycles, one after the other. -/
structure FaultyRun (σ : Type) where
  start : σ
  cycles : Nat → FaultyCycle σ

namespace FaultyRun

variable {σ : Type} (interfaces : Interfaces) (ledger : σ → Ledger)

/-- The state before a cycle of a run. -/
def state (r : FaultyRun σ) : Nat → σ
  | 0 => r.start
  | n + 1 => ((r.cycles n).cycle interfaces (state r n)).2

def result (r : FaultyRun σ) (n : Nat) : Except Fault DispatchOutcome :=
  ((r.cycles n).cycle interfaces (r.state interfaces n)).1

def Applies (r : FaultyRun σ) (n : Nat) : Prop :=
  ∃ policies rules, r.result interfaces n = .ok (.applied policies rules)

/-- Of the first `n` cycles, a cycle is the last one that applied its script. -/
structure AppliesLast (r : FaultyRun σ) (a n : Nat) : Prop where
  lt : a < n
  applies : r.Applies interfaces a
  later : ∀ b, a < b → b < n → ¬ r.Applies interfaces b

/-- The ledger tells of the last of the first `n` cycles that applied a script. -/
def Recorded (r : FaultyRun σ) (n : Nat) : Prop :=
  (ledger (r.state interfaces n)).recorded = none ∨ ∃ a plan, r.AppliesLast interfaces a n ∧
    (ledger (r.state interfaces n)).recorded = some (r.cycles a).now ∧
    ((r.cycles a).reads.plan interfaces (r.cycles a).now).1 = .ok plan ∧
    (ledger (r.state interfaces n)).scripts.getLast? = some plan.script

variable {interfaces ledger} {r : FaultyRun σ}

theorem AppliesLast.succ {a n : Nat} (h : r.AppliesLast interfaces a n)
    (hn : ¬ r.Applies interfaces n) : r.AppliesLast interfaces a (n + 1) where
  lt := Nat.lt_succ_of_lt h.lt
  applies := h.applies
  later b hab hb := by
    rcases Nat.lt_succ_iff_lt_or_eq.mp hb with hlt | rfl
    · exact h.later b hab hlt
    · exact hn

theorem appliesLast_self {n : Nat} (h : r.Applies interfaces n) :
    r.AppliesLast interfaces n (n + 1) where
  lt := Nat.lt_succ_self n
  applies := h
  later _ hnb hb := absurd hb (by omega)

/-- A cycle that does not apply its script leaves what is recorded. -/
theorem Recorded.succ {n : Nat} (h : r.Recorded interfaces ledger n)
    (hn : ¬ r.Applies interfaces n)
    (hledger : ledger (r.state interfaces (n + 1)) = ledger (r.state interfaces n)) :
    r.Recorded interfaces ledger (n + 1) := by
  unfold Recorded
  rw [hledger]
  exact h.imp_right fun ⟨a, plan, hlast, hrest⟩ => ⟨a, plan, hlast.succ hn, hrest⟩

theorem not_applies_of_error {n : Nat} {fault : Fault} (h : r.result interfaces n = .error fault) :
    ¬ r.Applies interfaces n := by
  rintro ⟨policies, rules, happlied⟩
  exact absurd (h.symm.trans happlied) (by simp)

theorem not_applies_of_skipped {n : Nat} {why : DispatchState}
    (h : r.result interfaces n = .ok (.skipped why)) : ¬ r.Applies interfaces n := by
  rintro ⟨policies, rules, happlied⟩
  exact absurd (h.symm.trans happlied) (by simp)

section store

variable {store : Store} (hstore : store.DistinctIds)
  (hon : ∀ n, (r.cycles n).On ledger store)

variable (interfaces) in
include hstore hon in
theorem effect (n : Nat) :
    CycleReads.Effect store (r.cycles n).reads (r.cycles n).runner interfaces (r.cycles n).now
      (r.state interfaces n) (r.result interfaces n) (r.state interfaces (n + 1)) :=
  (hon n).effect hstore (r.state interfaces n)

include hstore hon in
theorem recorded (hstart : (ledger r.start).recorded = none) (n : Nat) :
    r.Recorded interfaces ledger n := by
  induction n with
  | zero => exact .inl hstart
  | succ n ih =>
    have heffect := r.effect interfaces hstore hon n
    generalize hresult : r.result interfaces n = result at heffect
    generalize hnext : r.state interfaces (n + 1) = next at heffect
    cases heffect with
    | failed => exact ih.succ (not_applies_of_error hresult) (congrArg ledger hnext)
    | skipped => exact ih.succ (not_applies_of_skipped hresult) (congrArg ledger hnext)
    | refused refusal =>
      have hledger := (hon n).keeps.refused refusal
      exact ih.succ (not_applies_of_error hresult) ((congrArg ledger hnext).trans hledger)
    | applied planned success =>
      have hledger := (hon n).keeps.applied success
      refine .inr ⟨n, _, appliesLast_self ⟨_, _, hresult⟩, ?_, planned, ?_⟩
      · rw [hnext, hledger]
        rfl
      · rw [hnext, hledger]
        exact List.getLast?_concat

include hstore hon in
/-- A cycle that does not fail leaves the script of some cycle in place that had the same active
policies. -/
theorem settled (hstart : (ledger r.start).recorded = none) {n : Nat} {outcome : DispatchOutcome}
    (hok : r.result interfaces n = .ok outcome) :
    ∃ a plan, r.AppliesLast interfaces a (n + 1) ∧
      ((r.cycles a).reads.plan interfaces (r.cycles a).now).1 = .ok plan ∧
      (ledger (r.state interfaces (n + 1))).scripts.getLast? = some plan.script ∧
      store.activeAt (r.cycles a).now = store.activeAt (r.cycles n).now := by
  have heffect := r.effect interfaces hstore hon n
  generalize hnext : r.state interfaces (n + 1) = next at heffect ⊢
  rw [hok] at heffect
  cases heffect with
  | applied planned success =>
    have hledger := (hon n).keeps.applied success
    refine ⟨n, _, appliesLast_self ⟨_, _, hok⟩, planned, ?_, rfl⟩
    rw [hledger]
    exact List.getLast?_concat
  | @skipped before last same =>
    -- the decision looked at the recorded moment, which is that of the last applied script
    have hrecorded : (ledger (r.state interfaces n)).recorded = some before := by
      rcases (hon n).keeps.last (r.state interfaces n) with hledger | ⟨fault, hfault⟩
      · exact Except.ok.inj (hledger.symm.trans last)
      · rw [hfault] at last
        exact absurd last (by simp)
    rcases r.recorded hstore hon hstart n with hnone | ⟨a, plan, hlast, hmoment, hplan, hscript⟩
    · exact absurd (hnone.symm.trans hrecorded) (by simp)
    · have hbefore : (r.cycles a).now = before := Option.some.inj (hmoment.symm.trans hrecorded)
      refine ⟨a, plan, hlast.succ (not_applies_of_skipped hok), hplan, hscript, ?_⟩
      rw [hbefore]
      exact same

end store

end FaultyRun

end TrafficWarden
