import TrafficWarden.Command.Run
import TrafficWarden.Proofs.CatalogIsolation
import TrafficWarden.Proofs.ParameterJoin

/-!
# Targets of repeated policies

A row of a policy brings the targets of its identity along when it is admitted. A later row with
the identity takes the place of the policy, and its targets come after those that are there. So the
targets of a policy stand in the store once for every accepted row with its identity.
-/

namespace TrafficWarden.Catalog

variable {c : Catalog}

/-- The rows of the targets of a policy. -/
def targetRows (c : Catalog) (id : EntityId) : List TargetRow :=
  c.targets.filter (·.policy = id.value)

/-- The accepted rows with an identity. -/
def admissions (c : Catalog) (id : EntityId) : List PolicyRow :=
  c.acceptedRows.filter (·.id = id.value)

theorem admissions_ne_nil {id : EntityId} (hlisted : ∃ p ∈ c.toStore.1.policies, p.id = id) :
    c.admissions id ≠ [] := by
  obtain ⟨row, hrow, hid, haccepts⟩ := exists_listed_iff.mp hlisted
  have hmem : row ∈ c.admissions id :=
    List.mem_filter.mpr ⟨mem_acceptedRows.mpr ⟨hrow, haccepts⟩, decide_eq_true hid⟩
  exact List.ne_nil_of_mem hmem

/-- Every target row of a listed policy spells a target. -/
theorem exists_targets {id : EntityId} (hlisted : ∃ p ∈ c.toStore.1.policies, p.id = id) :
    ∃ ts, List.Forall₂ TargetRow.Spells (c.targetRows id) ts := by
  obtain ⟨row, -, hid, haccepts⟩ := exists_listed_iff.mp hlisted
  obtain ⟨p, ts, hok⟩ := exists_policy_eq_ok_iff.mpr haccepts
  rw [targetRows, ← hid]
  exact ⟨ts, (policy_eq_ok_iff.mp hok).2.1⟩

/-- Each accepted row with an identity adds all its targets. -/
theorem targetsOf_eq_flatMap {id : EntityId} {ts : List Target}
    (hts : List.Forall₂ TargetRow.Spells (c.targetRows id) ts) :
    c.toStore.1.targetsOf id = (c.admissions id).flatMap fun _ => ts := by
  rw [targetsOf_toStore, joinedPolicies, admissions, acceptedRows]
  induction c.policies with
  | nil => rfl
  | cons row rows ih =>
    cases hok : c.policy c.knownClasses row with
    | error fault =>
      have hnot : ¬ c.Accepts row := by simp [← isOk_policy_iff, hok, Except.isOk, Except.toBool]
      simpa [hok, hnot, Except.toOption] using ih
    | ok joined =>
      have haccepts : c.Accepts row := isOk_policy_iff.mp (by rw [hok]; rfl)
      obtain ⟨hjoins, hspells, -⟩ := policy_eq_ok_iff.mp hok
      have hid : joined.1.id = id ↔ row.id = id.value := by
        rw [hjoins.fields.id, EntityId.mk_eq_iff]
      by_cases h : row.id = id.value
      · rw [h] at hspells
        have hsame : joined.2 = ts :=
          List.right_unique_forall₂' TargetRow.rightUnique_spells hspells hts
        simpa [hok, haccepts, Except.toOption, hid, h, hsame] using ih
      · simpa [hok, haccepts, Except.toOption, hid, h] using ih

theorem length_targetsOf {id : EntityId} {ts : List Target}
    (hts : List.Forall₂ TargetRow.Spells (c.targetRows id) ts) :
    (c.toStore.1.targetsOf id).length = (c.admissions id).length * (c.targetRows id).length := by
  rw [targetsOf_eq_flatMap hts, hts.length_eq]
  induction c.admissions id with
  | nil => simp
  | cons row rows ih => simp [ih, Nat.add_mul, Nat.add_comm]

/-- The targets are those of the rows, each once, if there is only one accepted row or nothing to
repeat. -/
theorem forall₂_targetsOf_iff {id : EntityId} {ts : List Target}
    (hts : List.Forall₂ TargetRow.Spells (c.targetRows id) ts) :
    List.Forall₂ TargetRow.Spells (c.targetRows id) (c.toStore.1.targetsOf id) ↔
      (c.admissions id).length = 1 ∨ c.targetRows id = [] := by
  constructor
  · intro h
    have hlength := h.length_eq
    rw [length_targetsOf hts] at hlength
    rcases Nat.eq_zero_or_pos (c.targetRows id).length with hzero | hpos
    · exact .inr (List.length_eq_zero_iff.mp hzero)
    · exact .inl (Nat.eq_of_mul_eq_mul_right hpos (by rw [← hlength, Nat.one_mul]))
  · rintro (hone | hnil)
    · obtain ⟨row, hrow⟩ := List.length_eq_one_iff.mp hone
      rwa [targetsOf_eq_flatMap hts, hrow, List.flatMap_singleton]
    · have hts' := hts
      rw [hnil, List.forall₂_nil_left_iff] at hts'
      rw [targetsOf_eq_flatMap hts, hts', hnil]
      simp

theorem policy_source_toStore {p : Policy} (hp : p ∈ c.toStore.1.policies) :
    c.toStore.1.source.policy p.id = .ok p := by
  have hfound : c.toStore.1.policies.find? (·.id = p.id) = some p := by
    rw [toStore_eq] at hp ⊢
    rw [find?_insertPolicies]
    exact mem_insertPolicies.mp hp
  simp only [PolicySource.policy, Store.source, bind, Except.bind, hfound, orNotFound]

/-- A policy of the store is shown with the targets that the store has for it. -/
theorem exists_detail {p : Policy} (hp : p ∈ c.toStore.1.policies) :
    ∃ b, c.toStore.1.source.detail p.id =
      .ok (.policy p (c.toStore.1.targetsOf p.id) b) := by
  obtain ⟨b, hb⟩ := exists_bag ⟨p, hp, rfl⟩
  have htargets : c.toStore.1.source.targets p.id = .ok (c.toStore.1.targetsOf p.id) := rfl
  refine ⟨b, ?_⟩
  simp only [PolicySource.detail, policy_source_toStore hp, htargets, hb, Except.mapError, bind,
    Except.bind, pure, Except.pure]

/-- The targets of a policy of the store are those of its rows, over and over: once for every
accepted row with its identity, so at least once. They are shown as often. So each row counts once
exactly if no other accepted row has the identity, or there is no row to count. -/
theorem targets_once_per_admission (c : Catalog) {p : Policy} (hp : p ∈ c.toStore.1.policies) :
    ∃ ts b, List.Forall₂ TargetRow.Spells (c.targetRows p.id) ts ∧
      c.admissions p.id ≠ [] ∧
      c.toStore.1.targetsOf p.id = (c.admissions p.id).flatMap (fun _ => ts) ∧
      c.toStore.1.source.detail p.id = .ok (.policy p (c.toStore.1.targetsOf p.id) b) ∧
      (c.toStore.1.targetsOf p.id).length =
        (c.admissions p.id).length * (c.targetRows p.id).length ∧
      (List.Forall₂ TargetRow.Spells (c.targetRows p.id) (c.toStore.1.targetsOf p.id) ↔
        (c.admissions p.id).length = 1 ∨ c.targetRows p.id = []) := by
  obtain ⟨ts, hts⟩ := exists_targets ⟨p, hp, rfl⟩
  obtain ⟨b, hdetail⟩ := exists_detail hp
  exact ⟨ts, b, hts, admissions_ne_nil ⟨p, hp, rfl⟩, targetsOf_eq_flatMap hts, hdetail,
    length_targetsOf hts, forall₂_targetsOf_iff hts⟩

/-- A catalog with a policy in two rows, and one target of it. -/
def guestsTwice : Catalog :=
  let guests : PolicyRow := ⟨1, "guests", none, true, none, none, none⟩
  { (∅ : Catalog) with
    policies := [guests, guests]
    targets := [⟨7, 1, none, "d", some "00:00:00:00:00:01"⟩] }

theorem targets_once_per_admission_of_guests :
    let c := guestsTwice
    let p : Policy := ⟨⟨1⟩, "guests", none, true, none, none, none, []⟩
    p ∈ c.toStore.1.policies ∧
      ∃ ts b, List.Forall₂ TargetRow.Spells (c.targetRows p.id) ts ∧
        c.admissions p.id ≠ [] ∧
        c.toStore.1.targetsOf p.id = (c.admissions p.id).flatMap (fun _ => ts) ∧
        c.toStore.1.source.detail p.id = .ok (.policy p (c.toStore.1.targetsOf p.id) b) ∧
        (c.toStore.1.targetsOf p.id).length =
          (c.admissions p.id).length * (c.targetRows p.id).length ∧
        (List.Forall₂ TargetRow.Spells (c.targetRows p.id) (c.toStore.1.targetsOf p.id) ↔
          (c.admissions p.id).length = 1 ∨ c.targetRows p.id = []) := by
  intro c p
  have hp : p ∈ c.toStore.1.policies := by decide +kernel
  exact ⟨hp, targets_once_per_admission c hp⟩

/-- The one target row of a policy that has two rows is in the store twice. -/
theorem target_doubled :
    (guestsTwice.toStore.1.policies.map (·.id)) = [⟨1⟩] ∧
      (guestsTwice.targetRows ⟨1⟩).length = 1 ∧
      (guestsTwice.toStore.1.targetsOf ⟨1⟩).length = 2 := by
  decide +kernel

end TrafficWarden.Catalog
