import TrafficWarden.Dispatch.Cycle

/-!
# Reads that are answered one by one

A cycle reads its policies several times: for the windows, for the active policies at the recorded
moment, now and in the plan, and then for the targets of each policy of the plan and for the classes
that they name. Here every one of these reads has a source of its own, so that it may fail while the
others do not. On one source for all of them the cycle is that of the source.
-/

namespace TrafficWarden

open Calendar

/-- The sources of the reads of one cycle. For a policy of the plan, by its place, source 0 is read
for the targets and the later ones for the classes. -/
structure CycleReads where
  windows : PolicySource
  recorded : PolicySource
  present : PolicySource
  planned : PolicySource
  bags : Nat → Nat → PolicySource

namespace CycleReads

def ofSource (s : PolicySource) : CycleReads := ⟨s, s, s, s, fun _ _ => s⟩

instance : Coe PolicySource CycleReads := ⟨ofSource⟩

def collect : (Nat → PolicySource) → ParameterBag → List Target → Except Fault ParameterBag
  | _, b, [] => .ok b
  | reads, b, t :: rest =>
    match t.trafficClass with
    | none => collect reads (b.addTarget t none) rest
    | some id =>
      match (reads 0).trafficClass id with
      | .error fault => .error fault
      | .ok c => collect (fun n => reads (n + 1)) (b.addTarget t (some c)) rest

def bag (reads : Nat → PolicySource) (id : EntityId) : Except Fault ParameterBag := do
  let targets ← (reads 0).targets id
  collect (fun n => reads (n + 1)) ∅ targets

/-- Compiles policies in order, as a source does. -/
def compilePolicies : (Nat → Nat → PolicySource) → List Policy →
    Except Fault (List CompiledPolicy) × List Warning
  | _, [] => (.ok [], [])
  | reads, p :: rest =>
    match bag (reads 0) p.id with
    | .ok bag =>
      let (compiled, warnings) := compilePolicies (fun i => reads (i + 1)) rest
      (compiled.map (CompiledPolicy.compile p bag :: ·), warnings)
    | .error fault =>
      if fault.isLocal then
        let (compiled, warnings) := compilePolicies (fun i => reads (i + 1)) rest
        (compiled, .policySkipped p.id p.name fault :: warnings)
      else (.error fault, [])

def plan (r : CycleReads) (interfaces : Interfaces) (moment : Timestamp) :
    Except Fault Plan × List Warning :=
  match r.planned.active moment with
  | .error fault => (.error fault, [])
  | .ok active =>
    let (compiled, warnings) := compilePolicies r.bags active
    (compiled.map (⟨interfaces, moment, ·⟩), warnings)

def status (r : CycleReads) (last : Except Fault (Option Timestamp)) (now : Timestamp) :
    Except Fault DispatchStatus := do
  let last ← last
  let temporal ← r.windows.hasTimeWindows
  let changed : Option Bool ← match last with
    | some before =>
      if temporal then do
        let previous ← r.recorded.activeIds before
        let current ← r.present.activeIds now
        pure (some (setChanged previous current))
      else pure none
    | none => pure none
  return ⟨last, temporal, changed, decideState last temporal (changed.getD false)⟩

section cycle

variable {σ : Type} (r : CycleReads) (runner : Runner σ) (interfaces : Interfaces)
  (now : Timestamp)

def applyPlan (state : σ) : Except Fault DispatchOutcome × σ × List Warning :=
  match r.plan interfaces now with
  | (.error fault, warnings) => (.error fault, state, warnings)
  | (.ok plan, warnings) =>
    match runner.apply state plan.script with
    | (.error fault, state, more) => (.error fault, state, warnings ++ more)
    | (.ok (), state, more) =>
      (.ok (.applied plan.policies.length plan.ruleCount), state, warnings ++ more)

def cycle (force : Bool) (state : σ) : Except Fault DispatchOutcome × σ × List Warning :=
  if force then r.applyPlan runner interfaces now state
  else
    match r.status (runner.last state) now with
    | .error fault => (.error fault, state, [])
    | .ok status =>
      if status.state.needsDispatch then r.applyPlan runner interfaces now state
      else (.ok (.skipped status.state), state, [])

end cycle

section ofSource

variable (s : PolicySource)

theorem collect_ofSource (b : ParameterBag) (targets : List Target) :
    collect (fun _ => s) b targets = ParameterBag.collect s.trafficClass b targets := by
  induction targets generalizing b with
  | nil => rfl
  | cons t rest ih =>
    unfold collect ParameterBag.collect
    cases t.trafficClass with
    | none => exact ih _
    | some id =>
      cases hread : s.trafficClass id with
      | error fault => simp only [hread]
      | ok c =>
        simp only [hread]
        exact ih _

theorem bag_ofSource (id : EntityId) : bag (fun _ => s) id = s.bag id := by
  simp only [bag, PolicySource.bag, collect_ofSource]

theorem compilePolicies_ofSource (policies : List Policy) :
    compilePolicies (fun _ _ => s) policies = s.compilePolicies policies := by
  induction policies with
  | nil => rfl
  | cons p rest ih =>
    cases htail : s.compilePolicies rest with
    | mk compiled warnings =>
      rw [htail] at ih
      cases hbag : s.bag p.id with
      | error fault =>
        simp only [compilePolicies, PolicySource.compilePolicies, bag_ofSource, hbag, ih, htail]
      | ok bag =>
        simp only [compilePolicies, PolicySource.compilePolicies, bag_ofSource, hbag, ih, htail]

theorem plan_ofSource (interfaces : Interfaces) (moment : Timestamp) :
    (ofSource s).plan interfaces moment = s.plan interfaces moment := by
  cases hactive : s.active moment with
  | error fault => simp only [plan, PolicySource.plan, ofSource, hactive]
  | ok active =>
    cases hcompiled : s.compilePolicies active with
    | mk compiled warnings =>
      simp only [plan, PolicySource.plan, ofSource, compilePolicies_ofSource, hactive, hcompiled]

theorem status_ofSource (last : Except Fault (Option Timestamp)) (now : Timestamp) :
    (ofSource s).status last now = s.status last now := by
  unfold status PolicySource.status
  refine bind_congr fun last => bind_congr fun temporal => ?_
  cases last with
  | none => rfl
  | some before =>
    cases temporal with
    | false => rfl
    | true =>
      -- the source binds its reads of identities together
      simp only [if_true, PolicySource.activeChanged, ofSource, bind_assoc, pure_bind]

theorem applyPlan_ofSource {σ : Type} (runner : Runner σ) (interfaces : Interfaces)
    (now : Timestamp) (state : σ) :
    (ofSource s).applyPlan runner interfaces now state =
      s.applyPlan runner interfaces now state := by
  have hplan := plan_ofSource s interfaces now
  unfold applyPlan PolicySource.applyPlan
  generalize (ofSource s).plan interfaces now = planned at hplan ⊢
  subst hplan
  rfl

/-- Through reads of one source, a cycle is that of the source. -/
theorem cycle_ofSource {σ : Type} (runner : Runner σ) (interfaces : Interfaces) (now : Timestamp)
    (force : Bool) (state : σ) :
    (ofSource s).cycle runner interfaces now force state =
      s.cycle runner interfaces now force state := by
  unfold cycle PolicySource.cycle
  cases force with
  | true => exact applyPlan_ofSource s runner interfaces now state
  | false =>
    have hstatus := status_ofSource s (runner.last state) now
    have happly := applyPlan_ofSource s runner interfaces now state
    generalize (ofSource s).status (runner.last state) now = answer at hstatus ⊢
    generalize (ofSource s).applyPlan runner interfaces now state = applied at happly ⊢
    subst hstatus happly
    rfl

end ofSource

end CycleReads

end TrafficWarden
