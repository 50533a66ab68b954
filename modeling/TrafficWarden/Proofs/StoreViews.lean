import TrafficWarden.Plan
import TrafficWarden.Proofs.ActiveIds
import TrafficWarden.Proofs.StoreInserts

/-!
# Views of a store

A source answers for a store if each of its reads gives what the store holds or fails, so that what
it gives can be told from the store. A view of the store is such a source whose failures end whatever
needs the read.
-/

namespace TrafficWarden

open Calendar

namespace PolicySource

/-- The reads give what a store holds, or fail in any way. -/
structure Answers (s : PolicySource) (store : Store) : Prop where
  policies : s.policies = .ok store.policies ∨ ∃ fault, s.policies = .error fault
  targets : ∀ id, s.targets id = .ok (store.targetsOf id) ∨ ∃ fault, s.targets id = .error fault
  trafficClass : ∀ id, s.trafficClass id = store.source.trafficClass id ∨
    ∃ fault, s.trafficClass id = .error fault

/-- The reads give what a store holds, or fail. A fault about one entity is no failed read, but
what a store says of that entity. -/
structure Views (s : PolicySource) (store : Store) : Prop where
  policies : s.policies = .ok store.policies ∨ ∃ fault, s.policies = .error fault
  targets : ∀ id, s.targets id = .ok (store.targetsOf id) ∨
    ∃ fault, s.targets id = .error fault ∧ fault.isLocal = false
  trafficClass : ∀ id, s.trafficClass id = store.source.trafficClass id ∨
    ∃ fault, s.trafficClass id = .error fault ∧ fault.isLocal = false

theorem Views.answers {s : PolicySource} {store : Store} (h : s.Views store) :
    s.Answers store where
  policies := h.policies
  targets id := (h.targets id).imp_right fun ⟨fault, hfault, _⟩ => ⟨fault, hfault⟩
  trafficClass id := (h.trafficClass id).imp_right fun ⟨fault, hfault, _⟩ => ⟨fault, hfault⟩

end PolicySource

theorem Store.views_source (store : Store) : store.source.Views store where
  policies := .inl rfl
  targets _ := .inl rfl
  trafficClass _ := .inl rfl

theorem Store.answers_source (store : Store) : store.source.Answers store :=
  store.views_source.answers

namespace Store

/-- The policies of a store that are active at a moment. -/
def activeAt (store : Store) (moment : Timestamp) : List Policy :=
  store.policies.filter (·.isActive moment)

theorem active_source (store : Store) (moment : Timestamp) :
    store.source.active moment = .ok (store.activeAt moment) := rfl

/-- Without windows the time does not matter. -/
theorem activeAt_eq_of_not_hasWindows {store : Store}
    (h : ∀ p ∈ store.policies, p.hasWindows = false) (before now : Timestamp) :
    store.activeAt before = store.activeAt now :=
  filter_isActive_of_not_hasWindows h before now

/-- The active policies of a store are the same if their identities are. -/
theorem DistinctIds.activeAt_eq {store : Store} (h : store.DistinctIds) {before now : Timestamp}
    (hsame : setChanged (.ofList ((store.activeAt before).map (·.id)))
      (.ofList ((store.activeAt now).map (·.id))) = false) :
    store.activeAt before = store.activeAt now := by
  rw [setChanged_eq_false_iff] at hsame
  simp only [OrderedSet.mem_ofList] at hsame
  exact h.filter_eq_of_ids hsame

/-- The faults of a bag in a store are about one entity. -/
theorem bag_source_isLocal {store : Store} {id : EntityId} {fault : Fault}
    (h : store.source.bag id = .error fault) : fault.isLocal = true := by
  have hcollect : ∀ (targets : List Target) (b : ParameterBag),
      ParameterBag.collect store.source.trafficClass b targets = .error fault →
        fault.isLocal = true := by
    intro targets
    induction targets with
    | nil => exact fun b hb => absurd hb (by simp [ParameterBag.collect])
    | cons t rest ih =>
      intro b hb
      unfold ParameterBag.collect at hb
      cases ht : t.trafficClass with
      | none =>
        rw [ht] at hb
        exact ih _ hb
      | some id =>
        rw [ht] at hb
        cases hclass : store.class? id with
        | none =>
          simp only [source, orNotFound, hclass] at hb
          rw [← Except.error.inj hb]
          rfl
        | some c =>
          simp only [source, orNotFound, hclass] at hb
          exact ih _ hb
  exact hcollect _ _ h

/-- Every list of policies compiles in a store. -/
theorem exists_compilePolicies (store : Store) (policies : List Policy) :
    ∃ compiled, (store.source.compilePolicies policies).1 = .ok compiled := by
  induction policies with
  | nil => exact ⟨[], rfl⟩
  | cons p rest ih =>
    obtain ⟨compiled, hrest⟩ := ih
    unfold PolicySource.compilePolicies
    cases hbag : store.source.bag p.id with
    | ok bag => exact ⟨_, congrArg (Except.map _) hrest⟩
    | error fault =>
      simp only [bag_source_isLocal hbag, if_true]
      exact ⟨compiled, hrest⟩

/-- A store has a plan for every moment. -/
theorem exists_plan (store : Store) (interfaces : Interfaces) (moment : Timestamp) :
    ∃ plan, (store.source.plan interfaces moment).1 = .ok plan := by
  obtain ⟨compiled, h⟩ := store.exists_compilePolicies (store.activeAt moment)
  exact ⟨⟨interfaces, moment, compiled⟩, congrArg (Except.map _) h⟩

/-- The plans of two moments with the same active policies differ in the moment alone. -/
theorem plan_of_activeAt_eq {store : Store} {interfaces : Interfaces} {before now : Timestamp}
    (h : store.activeAt before = store.activeAt now) {plan : Plan}
    (hplan : (store.source.plan interfaces before).1 = .ok plan) :
    (store.source.plan interfaces now).1 = .ok { plan with moment := now } := by
  simp only [PolicySource.plan, active_source, h] at hplan ⊢
  obtain ⟨compiled, hcompiled, rfl⟩ := map_eq_ok_iff.mp hplan
  rw [hcompiled]
  rfl

end Store

namespace PolicySource.Answers

variable {s : PolicySource} {store : Store}

theorem policies_eq (h : s.Answers store) {policies : List Policy}
    (hok : s.policies = .ok policies) : policies = store.policies := by
  rcases h.policies with heq | ⟨fault, hfault⟩
  · exact Except.ok.inj (hok.symm.trans heq)
  · rw [hfault] at hok
    exact absurd hok (by simp)

theorem active_eq (h : s.Answers store) {moment : Timestamp} {policies : List Policy}
    (hok : s.active moment = .ok policies) : policies = store.activeAt moment := by
  obtain ⟨all, hall, hfilter⟩ := bind_eq_ok_iff.mp hok
  rw [h.policies_eq hall] at hfilter
  exact (Except.ok.inj hfilter).symm

theorem activeIds_eq (h : s.Answers store) {moment : Timestamp} {ids : OrderedSet EntityId}
    (hok : s.activeIds moment = .ok ids) : ids = .ofList ((store.activeAt moment).map (·.id)) := by
  obtain ⟨active, hactive, hids⟩ := bind_eq_ok_iff.mp hok
  rw [h.active_eq hactive] at hids
  exact (Except.ok.inj hids).symm

theorem not_hasWindows (h : s.Answers store) (hok : s.hasTimeWindows = .ok false) :
    ∀ p ∈ store.policies, p.hasWindows = false := by
  obtain ⟨all, hall, hany⟩ := bind_eq_ok_iff.mp hok
  rw [h.policies_eq hall] at hany
  have hnone : store.policies.any (·.hasWindows) = false := Except.ok.inj hany
  simpa using hnone

theorem class_eq (h : s.Answers store) {id : EntityId} {c : TrafficClass}
    (hok : s.trafficClass id = .ok c) : store.source.trafficClass id = .ok c := by
  rcases h.trafficClass id with heq | ⟨fault, hfault⟩
  · exact heq.symm.trans hok
  · rw [hfault] at hok
    exact absurd hok (by simp)

theorem targets_eq (h : s.Answers store) {id : EntityId} {targets : List Target}
    (hok : s.targets id = .ok targets) : targets = store.targetsOf id := by
  rcases h.targets id with heq | ⟨fault, hfault⟩
  · exact Except.ok.inj (hok.symm.trans heq)
  · rw [hfault] at hok
    exact absurd hok (by simp)

end PolicySource.Answers

namespace PolicySource.Views

variable {s : PolicySource} {store : Store}

/-- The active policies of the store are the same at two moments between which a view finds no
change. -/
theorem activeAt_eq_of_not_changed (h : s.Views store) (hstore : store.DistinctIds)
    {before now : Timestamp} (hok : s.activeChanged before now = .ok false) :
    store.activeAt before = store.activeAt now := by
  obtain ⟨previous, hprevious, hrest⟩ := bind_eq_ok_iff.mp hok
  obtain ⟨current, hcurrent, hsame⟩ := bind_eq_ok_iff.mp hrest
  refine hstore.activeAt_eq ?_
  rw [← h.answers.activeIds_eq hprevious, ← h.answers.activeIds_eq hcurrent]
  exact Except.ok.inj hsame

/-- Between two moments without a change, the active policies of the store are the same. -/
theorem activeAt_eq (h : s.Views store) (hstore : store.DistinctIds) {before now : Timestamp}
    (hsame : s.hasTimeWindows = .ok false ∨ s.activeChanged before now = .ok false) :
    store.activeAt before = store.activeAt now := by
  rcases hsame with hnone | hsame
  · exact Store.activeAt_eq_of_not_hasWindows (h.answers.not_hasWindows hnone) before now
  · exact h.activeAt_eq_of_not_changed hstore hsame

end PolicySource.Views

end TrafficWarden
