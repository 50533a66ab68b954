import Mathlib.Logic.Basic
import TrafficWarden.Dispatch.Decision
import TrafficWarden.Proofs.Results

/-!
# Active identities and decisions

A decision after a dispatch compares the identities that are active now with those that were active
at the recorded moment, but only if some policy has windows. Without windows there is nothing to
compare, so leaving the comparison out hides no change.
-/

namespace TrafficWarden

open Calendar

theorem setChanged_eq_false_iff {previous current : OrderedSet EntityId} :
    setChanged previous current = false ↔ ∀ id, id ∈ previous ↔ id ∈ current := by
  simp only [setChanged, Bool.or_eq_false_iff, List.any_eq_false, Bool.not_eq_true',
    List.contains_eq_mem, decide_eq_false_iff_not, not_not, OrderedSet.mem_toList]
  exact ⟨fun h id => ⟨h.1 id, h.2 id⟩, fun h => ⟨fun id => (h id).mp, fun id => (h id).mpr⟩⟩

/-- Without windows the time does not matter. -/
theorem filter_isActive_of_not_hasWindows {ps : List Policy}
    (h : ∀ p ∈ ps, p.hasWindows = false) (before now : Timestamp) :
    ps.filter (·.isActive before) = ps.filter (·.isActive now) := by
  refine List.filter_congr fun p hp => ?_
  have hwindows : p.windows.isEmpty = true := by simpa [Policy.hasWindows] using h p hp
  rw [Policy.isActive, Policy.isActive, hwindows, Bool.true_or, Bool.true_or]

theorem any_hasWindows_iff {ps : List Policy} :
    ps.any (·.hasWindows) = true ↔ ∃ p ∈ ps, p.windows ≠ [] := by
  simp [Policy.hasWindows]

/-- Some active policy has an identity. -/
def IsActiveId (ps : List Policy) (moment : Timestamp) (id : EntityId) : Prop :=
  ∃ p ∈ ps, p.id = id ∧ p.isActive moment = true

/-- The identities of the active policies. -/
def activeIdsOf (ps : List Policy) (moment : Timestamp) : OrderedSet EntityId :=
  .ofList ((ps.filter (·.isActive moment)).map (·.id))

theorem mem_activeIdsOf {ps : List Policy} {moment : Timestamp} {id : EntityId} :
    id ∈ activeIdsOf ps moment ↔ IsActiveId ps moment id := by
  simp only [activeIdsOf, IsActiveId, OrderedSet.mem_ofList, List.mem_map, List.mem_filter]
  exact exists_congr fun p => ⟨fun h => ⟨h.1.1, h.2, h.1.2⟩, fun h => ⟨⟨h.1, h.2.2⟩, h.2.1⟩⟩

theorem activeIdsOf_of_not_hasWindows {ps : List Policy} (h : ps.any (·.hasWindows) = false)
    (before now : Timestamp) : activeIdsOf ps before = activeIdsOf ps now := by
  have hnone : ∀ p ∈ ps, p.hasWindows = false := by simpa using h
  rw [activeIdsOf, activeIdsOf, filter_isActive_of_not_hasWindows hnone before now]

theorem setChanged_activeIdsOf_iff {ps : List Policy} {before now : Timestamp} :
    setChanged (activeIdsOf ps before) (activeIdsOf ps now) = true ↔
      ∃ id, Xor (IsActiveId ps before id) (IsActiveId ps now id) := by
  rw [← Bool.not_eq_false, setChanged_eq_false_iff, not_forall]
  exact exists_congr fun id => by rw [mem_activeIdsOf, mem_activeIdsOf, xor_iff_not_iff]

namespace PolicySource

variable {s : PolicySource} {ps : List Policy}

theorem hasTimeWindows_of_policies (h : s.policies = .ok ps) :
    s.hasTimeWindows = .ok (ps.any (·.hasWindows)) := by
  rw [hasTimeWindows, h]
  rfl

theorem activeChanged_of_policies (h : s.policies = .ok ps) (before now : Timestamp) :
    s.activeChanged before now = .ok (setChanged (activeIdsOf ps before) (activeIdsOf ps now)) := by
  have hids : ∀ moment, s.activeIds moment = .ok (activeIdsOf ps moment) := by
    intro moment
    rw [activeIds, active, h]
    rfl
  rw [activeChanged, hids, hids]
  rfl

theorem status_of_not_temporal (hs : s.hasTimeWindows = .ok false) (last : Option Timestamp)
    (now : Timestamp) :
    s.status (.ok last) now = .ok ⟨last, false, none, decideState last false false⟩ := by
  simp only [status, hs, bind, Except.bind]
  cases last <;> rfl

theorem status_of_temporal (hs : s.hasTimeWindows = .ok true) {before now : Timestamp}
    {changed : Bool} (hchanged : s.activeChanged before now = .ok changed) :
    s.status (.ok (some before)) now =
      .ok ⟨some before, true, some changed, decideState (some before) true changed⟩ := by
  simp only [status, hs, hchanged, bind, Except.bind]
  rfl

/-- A decision compares the active identities only if some policy has windows. Its state is as if
they were always compared. -/
theorem status_of_policies (h : s.policies = .ok ps) (before now : Timestamp) :
    s.status (.ok (some before)) now = .ok {
      last := some before
      temporal := ps.any (·.hasWindows)
      changed := if ps.any (·.hasWindows) then
          some (setChanged (activeIdsOf ps before) (activeIdsOf ps now))
        else none
      state := if setChanged (activeIdsOf ps before) (activeIdsOf ps now) then .dispatchNeeded
        else .idle } := by
  have hwindows := hasTimeWindows_of_policies h
  cases htemporal : ps.any (·.hasWindows) with
  | false =>
    have hsame : setChanged (activeIdsOf ps before) (activeIdsOf ps now) = false := by
      rw [setChanged_eq_false_iff, activeIdsOf_of_not_hasWindows htemporal before now]
      exact fun id => Iff.rfl
    rw [htemporal] at hwindows
    rw [status_of_not_temporal hwindows, hsame]
    rfl
  | true =>
    rw [htemporal] at hwindows
    rw [status_of_temporal hwindows (activeChanged_of_policies h before now)]
    cases setChanged (activeIdsOf ps before) (activeIdsOf ps now) <;> rfl

/-- After a dispatch a new one is needed if and only if some identity is active at one of the two
moments alone, whether or not the active identities were compared; and when they were, the
comparison says so. -/
theorem status_compares_active_ids (s : PolicySource) {ps : List Policy} (h : s.policies = .ok ps)
    (before now : Timestamp) :
    ∃ status, s.status (.ok (some before)) now = .ok status ∧
      (status.state = .dispatchNeeded ↔
        ∃ id, Xor (IsActiveId ps before id) (IsActiveId ps now id)) ∧
      (status.state = .idle ↔ ¬ ∃ id, Xor (IsActiveId ps before id) (IsActiveId ps now id)) ∧
      (status.changed.isSome = true ↔ ∃ p ∈ ps, p.windows ≠ []) ∧
      ∀ changed, status.changed = some changed →
        (changed = true ↔ status.state = .dispatchNeeded) := by
  refine ⟨_, status_of_policies h before now, ?_⟩
  rw [← setChanged_activeIdsOf_iff, ← any_hasWindows_iff]
  cases ps.any (·.hasWindows) <;>
    cases setChanged (activeIdsOf ps before) (activeIdsOf ps now) <;> simp

/-- One identity stands for two policies whose windows take turns, a disabled policy has a window,
and another window is empty. The recorded moment lies in the future. -/
theorem status_compares_active_ids_of_turns :
    let policy (id : Int) (enabled : Bool) (windows : List TimeWindow) : Policy :=
      ⟨⟨id⟩, "office", none, enabled, none, none, none, windows⟩
    let ps := [policy 1 true [⟨.tuesday, ⟨9, 0, 0⟩, ⟨17, 0, 0⟩, by decide⟩],
      policy 1 true [⟨.tuesday, ⟨17, 0, 0⟩, ⟨20, 0, 0⟩, by decide⟩],
      policy 2 false [⟨.tuesday, ⟨9, 0, 0⟩, ⟨17, 0, 0⟩, by decide⟩],
      policy 3 true [⟨.tuesday, ⟨9, 0, 0⟩, ⟨9, 0, 0⟩, by decide⟩]]
    let s : PolicySource := { Store.empty.source with policies := .ok ps }
    let tuesday : Date := ⟨2024, 3, 5, by decide⟩
    let before : Timestamp := ⟨tuesday, ⟨18, 0, 0⟩⟩
    let now : Timestamp := ⟨tuesday, ⟨10, 0, 0⟩⟩
    s.policies = .ok ps ∧
      ∃ status, s.status (.ok (some before)) now = .ok status ∧
        (status.state = .dispatchNeeded ↔
          ∃ id, Xor (IsActiveId ps before id) (IsActiveId ps now id)) ∧
        (status.state = .idle ↔ ¬ ∃ id, Xor (IsActiveId ps before id) (IsActiveId ps now id)) ∧
        (status.changed.isSome = true ↔ ∃ p ∈ ps, p.windows ≠ []) ∧
        ∀ changed, status.changed = some changed →
          (changed = true ↔ status.state = .dispatchNeeded) := by
  intro policy ps s tuesday before now
  exact ⟨rfl, status_compares_active_ids s rfl before now⟩

end PolicySource

end TrafficWarden
