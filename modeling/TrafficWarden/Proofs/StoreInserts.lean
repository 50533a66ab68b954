import Mathlib.Data.List.Nodup
import TrafficWarden.Store.Basic

/-!
# Stores that are reached by inserts

Whatever is inserted and in which order, a store lists every policy identity once.
-/

namespace TrafficWarden

section policies

variable (p : Policy) {policies : List Policy}

theorem map_id_insertPolicy_of_mem (h : p.id ∈ policies.map (·.id)) :
    (insertPolicy p policies).map (·.id) = policies.map (·.id) := by
  induction policies with
  | nil => exact absurd h List.not_mem_nil
  | cons q rest ih =>
    unfold insertPolicy
    split
    · rename_i hq
      rw [List.map_cons, List.map_cons, hq]
    · rename_i hq
      have hrest : p.id ∈ rest.map (·.id) := by
        rw [List.map_cons, List.mem_cons] at h
        exact h.resolve_left fun heq => hq heq.symm
      rw [List.map_cons, List.map_cons, ih hrest]

theorem insertPolicy_of_not_mem (h : p.id ∉ policies.map (·.id)) :
    insertPolicy p policies = policies ++ [p] := by
  induction policies with
  | nil => rfl
  | cons q rest ih =>
    rw [List.map_cons, List.mem_cons, not_or] at h
    rw [insertPolicy, if_neg fun hq => h.1 hq.symm, ih h.2, List.cons_append]

theorem nodup_map_id_insertPolicy (h : (policies.map (·.id)).Nodup) :
    ((insertPolicy p policies).map (·.id)).Nodup := by
  by_cases hp : p.id ∈ policies.map (·.id)
  · rw [map_id_insertPolicy_of_mem p hp]
    exact h
  · rw [insertPolicy_of_not_mem p hp, List.map_append, List.map_singleton,
      ← List.concat_eq_append]
    exact h.concat hp

end policies

/-- One operation on a store. -/
inductive StoreInsert where
  | policy (p : Policy)
  | target (t : Target)
  | trafficClass (c : TrafficClass)
deriving DecidableEq, Repr

namespace Store

def insert (s : Store) : StoreInsert → Store
  | .policy p => s.addPolicy p
  | .target t => s.addTarget t
  | .trafficClass c => s.addClass c

/-- The store after some inserts into the empty one. -/
def ofInserts (inserts : List StoreInsert) : Store := inserts.foldl insert ∅

/-- No two policies have the same identity. -/
def DistinctIds (s : Store) : Prop := (s.policies.map (·.id)).Nodup

theorem distinctIds_insert {s : Store} (h : s.DistinctIds) (i : StoreInsert) :
    (s.insert i).DistinctIds := by
  cases i with
  | policy p => exact nodup_map_id_insertPolicy p h
  | target t => exact h
  | trafficClass c => exact h

theorem distinctIds_foldl {s : Store} (h : s.DistinctIds) (inserts : List StoreInsert) :
    (inserts.foldl insert s).DistinctIds := by
  induction inserts generalizing s with
  | nil => exact h
  | cons i inserts ih => exact ih (distinctIds_insert h i)

theorem distinctIds_ofInserts (inserts : List StoreInsert) : (ofInserts inserts).DistinctIds := by
  have hempty : (∅ : Store).DistinctIds := List.nodup_nil
  exact distinctIds_foldl hempty inserts

theorem DistinctIds.eq_of_id_eq {s : Store} (h : s.DistinctIds) {p q : Policy}
    (hp : p ∈ s.policies) (hq : q ∈ s.policies) (hid : p.id = q.id) : p = q :=
  List.inj_on_of_nodup_map h hp hq hid

/-- Two choices among the policies of a store agree if they choose the same identities. -/
theorem DistinctIds.filter_eq_of_ids {s : Store} (h : s.DistinctIds) {P Q : Policy → Bool}
    (hids : ∀ id, id ∈ (s.policies.filter P).map (·.id) ↔ id ∈ (s.policies.filter Q).map (·.id)) :
    s.policies.filter P = s.policies.filter Q := by
  have hsub : ∀ {P Q : Policy → Bool}, (∀ id, id ∈ (s.policies.filter P).map (·.id) →
      id ∈ (s.policies.filter Q).map (·.id)) → ∀ p ∈ s.policies, P p = true → Q p = true := by
    intro P Q himp p hp hP
    have hmem : p.id ∈ (s.policies.filter P).map (·.id) :=
      List.mem_map_of_mem (List.mem_filter.mpr ⟨hp, hP⟩)
    obtain ⟨q, hq, hid⟩ := List.mem_map.mp (himp p.id hmem)
    obtain ⟨hqs, hQ⟩ := List.mem_filter.mp hq
    rwa [← h.eq_of_id_eq hqs hp hid]
  refine List.filter_congr fun p hp => Bool.eq_iff_iff.mpr ⟨?_, ?_⟩
  · exact hsub (fun id => (hids id).mp) p hp
  · exact hsub (fun id => (hids id).mpr) p hp

end Store

end TrafficWarden
