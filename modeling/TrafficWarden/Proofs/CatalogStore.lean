import Mathlib.Data.List.Induction
import TrafficWarden.Proofs.CatalogJoin
import TrafficWarden.Proofs.StoreInserts

/-!
# The store of a catalog

Rows are admitted one after another, and what a row adds does not depend on the rows before it. So
the store of a catalog is made of what its rows are joined to, each taken by itself.
-/

namespace TrafficWarden

section inserts

def insertPolicies (ps : List Policy) : List Policy :=
  ps.foldl (fun listed p => insertPolicy p listed) []

def insertClasses (cs : List TrafficClass) : List TrafficClass :=
  cs.foldl (fun listed c => insertClass c listed) []

theorem insertPolicies_append_singleton (ps : List Policy) (p : Policy) :
    insertPolicies (ps ++ [p]) = insertPolicy p (insertPolicies ps) := by
  rw [insertPolicies, List.foldl_append]
  rfl

theorem insertClasses_append_singleton (cs : List TrafficClass) (c : TrafficClass) :
    insertClasses (cs ++ [c]) = insertClass c (insertClasses cs) := by
  rw [insertClasses, List.foldl_append]
  rfl

theorem find?_insertPolicy (p : Policy) (listed : List Policy) (id : EntityId) :
    (insertPolicy p listed).find? (·.id = id) =
      if p.id = id then some p else listed.find? (·.id = id) := by
  induction listed with
  | nil => by_cases h : p.id = id <;> simp [insertPolicy, h]
  | cons q rest ih =>
    unfold insertPolicy
    split
    · rename_i hq
      by_cases h : p.id = id <;> simp [h, hq]
    · rename_i hq
      rw [List.find?_cons, List.find?_cons, ih]
      by_cases h : p.id = id
      · have hqid : q.id ≠ id := by rwa [← h]
        simp [h, hqid]
      · simp [h]

theorem find?_insertClass (c : TrafficClass) (listed : List TrafficClass) (id : EntityId) :
    (insertClass c listed).find? (·.id = id) =
      if c.id = id then some c else listed.find? (·.id = id) := by
  induction listed with
  | nil => by_cases h : c.id = id <;> simp [insertClass, h]
  | cons d rest ih =>
    unfold insertClass
    split
    · by_cases h : c.id = id <;> simp [h]
    · split
      · rename_i hd
        by_cases h : c.id = id
        · simp [h]
        · have hdid : d.id ≠ id := by rwa [← hd]
          simp [h, hdid]
      · rename_i hd
        rw [List.find?_cons, List.find?_cons, ih]
        by_cases h : c.id = id
        · have hdid : d.id ≠ id := fun heq => hd (h.trans heq.symm)
          simp [h, hdid]
        · simp [h]

/-- Of the policies with an identity, the last one that is inserted counts. -/
theorem find?_insertPolicies (ps : List Policy) (id : EntityId) :
    (insertPolicies ps).find? (·.id = id) = ps.reverse.find? (·.id = id) := by
  induction ps using List.reverseRecOn with
  | nil => rfl
  | append_singleton ps p ih =>
    rw [insertPolicies_append_singleton, find?_insertPolicy, ih]
    by_cases h : p.id = id <;> simp [h]

/-- Of the classes with an identity, the last one that is inserted counts. -/
theorem find?_insertClasses (cs : List TrafficClass) (id : EntityId) :
    (insertClasses cs).find? (·.id = id) = cs.reverse.find? (·.id = id) := by
  induction cs using List.reverseRecOn with
  | nil => rfl
  | append_singleton cs c ih =>
    rw [insertClasses_append_singleton, find?_insertClass, ih]
    by_cases h : c.id = id <;> simp [h]

theorem eraseDups_append_of_mem {α : Type} [DecidableEq α] {items : List α} {a : α}
    (h : a ∈ items) : (items ++ [a]).eraseDups = items.eraseDups := by
  have hnone : [a].removeAll items = [] := by rw [List.removeAll, List.filter_cons]; simp [h]
  rw [List.eraseDups_append, hnone, List.eraseDups_nil, List.append_nil]

theorem eraseDups_append_of_not_mem {α : Type} [DecidableEq α] {items : List α} {a : α}
    (h : a ∉ items) : (items ++ [a]).eraseDups = items.eraseDups ++ [a] := by
  have hall : [a].removeAll items = [a] := by rw [List.removeAll, List.filter_cons]; simp [h]
  rw [List.eraseDups_append, hall]
  rfl

/-- Policies are listed in the order in which their identities are inserted first. -/
theorem map_id_insertPolicies (ps : List Policy) :
    (insertPolicies ps).map (·.id) = (ps.map (·.id)).eraseDups := by
  induction ps using List.reverseRecOn with
  | nil => rfl
  | append_singleton ps p ih =>
    have hmem : p.id ∈ (insertPolicies ps).map (·.id) ↔ p.id ∈ ps.map (·.id) := by
      rw [ih, List.mem_eraseDups]
    rw [insertPolicies_append_singleton, List.map_append, List.map_singleton]
    by_cases h : p.id ∈ ps.map (·.id)
    · rw [map_id_insertPolicy_of_mem p (hmem.mpr h), eraseDups_append_of_mem h, ih]
    · rw [insertPolicy_of_not_mem p (mt hmem.mp h), List.map_append, List.map_singleton,
        eraseDups_append_of_not_mem h, ih]

theorem nodup_map_id_insertPolicies (ps : List Policy) :
    ((insertPolicies ps).map (·.id)).Nodup := by
  induction ps using List.reverseRecOn with
  | nil => exact List.nodup_nil
  | append_singleton ps p ih =>
    rw [insertPolicies_append_singleton]
    exact nodup_map_id_insertPolicy p ih

/-- Where no two items have the same identity, an item is found by its own. -/
theorem mem_iff_find?_of_nodup {α : Type} {key : α → EntityId} {items : List α}
    (h : (items.map key).Nodup) {a : α} :
    a ∈ items ↔ items.find? (fun b => decide (key b = key a)) = some a := by
  constructor
  · intro ha
    have hsome : (items.find? fun b => decide (key b = key a)).isSome = true := by
      rw [List.find?_isSome]
      exact ⟨a, ha, by simp⟩
    obtain ⟨b, hb⟩ := Option.isSome_iff_exists.mp hsome
    have hkey : key b = key a := by simpa using List.find?_some hb
    rw [hb, List.inj_on_of_nodup_map h (List.mem_of_find?_eq_some hb) ha hkey]
  · exact List.mem_of_find?_eq_some

theorem mem_insertPolicies {ps : List Policy} {p : Policy} :
    p ∈ insertPolicies ps ↔ ps.reverse.find? (·.id = p.id) = some p := by
  rw [← find?_insertPolicies]
  exact mem_iff_find?_of_nodup (nodup_map_id_insertPolicies ps)

end inserts

section rows

variable {α β : Type} {f : α → Option β} {P : α → Bool} {key : α → Int}

/-- Of the values that are made from rows, the last with an identity is made from the last row that
has it and gives a value. -/
theorem find?_reverse_filterMap {q : β → Bool} {id : Int} (hP : ∀ a, P a = (f a).isSome)
    (hq : ∀ a b, f a = some b → q b = decide (key a = id)) {rows : List α} {b : β} :
    (rows.filterMap f).reverse.find? q = some b ↔
      ∃ a, IsLast key (rows.filter P) id a ∧ f a = some b := by
  simp only [← find?_reverse_eq_some_iff]
  induction rows using List.reverseRecOn with
  | nil => simp
  | append_singleton rows a ih =>
    have hPa := hP a
    cases ha : f a with
    | none => simpa [List.filterMap_append, List.filter_append, ha, hPa] using ih
    | some value =>
      by_cases hid : key a = id
      · simp [List.filterMap_append, List.filter_append, ha, hPa, hq a value ha, hid]
      · simpa [List.filterMap_append, List.filter_append, ha, hPa, hq a value ha, hid] using ih

theorem map_filterMap_eq {γ : Type} {g : β → γ} {g' : α → γ} (hP : ∀ a, P a = (f a).isSome)
    (hg : ∀ a b, f a = some b → g b = g' a) (rows : List α) :
    (rows.filterMap f).map g = (rows.filter P).map g' := by
  induction rows with
  | nil => rfl
  | cons a rows ih =>
    have hPa := hP a
    cases ha : f a with
    | none => simpa [ha, hPa] using ih
    | some value => simpa [ha, hPa, hg a value ha] using ih

/-- A choice by identity does not change which row of an identity is the last. -/
theorem isLast_filter_iff {p : Int → Bool} {rows : List α} {id : Int} {row : α} :
    IsLast key (rows.filter fun r => p (key r)) id row ↔ IsLast key rows id row ∧ p id = true := by
  have hsame : (fun r => decide (p (key r) = true ∧ decide (key r = id) = true)) =
      fun r => p id && decide (key r = id) := by
    funext r
    by_cases h : key r = id <;> simp [h]
  rw [← find?_reverse_eq_some_iff, ← find?_reverse_eq_some_iff, ← List.filter_reverse,
    List.find?_filter, hsame]
  cases p id <;> simp [List.find?_eq_some_iff_append]

end rows

theorem EntityId.mk_eq_iff {n : Int} {id : EntityId} : EntityId.mk n = id ↔ n = id.value := by
  cases id
  simp

theorem orNotFound_eq_ok_iff {α : Type} {kind : EntityKind} {id : EntityId} {found : Option α}
    {a : α} : orNotFound kind id found = .ok a ↔ found = some a := by
  cases found <;> simp [orNotFound]

theorem orNotFound_eq_error_iff {α : Type} {kind : EntityKind} {id : EntityId}
    {found : Option α} : orNotFound kind id found = .error (.notFound kind id) ↔ found = none := by
  cases found <;> simp [orNotFound]

namespace Store

theorem foldl_addTarget (ts : List Target) (s : Store) :
    ts.foldl addTarget s = { s with targets := s.targets ++ ts } := by
  induction ts generalizing s with
  | nil => simp
  | cons t ts ih => simp [ih, addTarget]

theorem source_trafficClass_eq_ok_iff {s : Store} {id : EntityId} {t : TrafficClass} :
    s.source.trafficClass id = .ok t ↔ s.class? id = some t :=
  orNotFound_eq_ok_iff

end Store

namespace Catalog

variable {c : Catalog}

/-- The traffic classes that are joined from the rows. -/
def joinedClasses (c : Catalog) : List TrafficClass :=
  c.classes.filterMap fun row => (c.trafficClass row).toOption

/-- The policies that are joined from the rows, each with its targets. -/
def joinedPolicies (c : Catalog) : List (Policy × List Target) :=
  c.policies.filterMap fun row => (c.policy c.knownClasses row).toOption

/-- The warning about a row of a class that is not joined. -/
def classWarning? (c : Catalog) (row : ClassRow) : Option Warning :=
  match c.trafficClass row with
  | .ok _ => none
  | .error fault => some (.classDropped ⟨row.id⟩ row.name fault)

/-- The warning about a row of a policy that is not joined. -/
def policyWarning? (c : Catalog) (row : PolicyRow) : Option Warning :=
  match c.policy c.knownClasses row with
  | .ok _ => none
  | .error fault => some (.policyRejected ⟨row.id⟩ row.name fault)

theorem foldl_admitClass (rows : List ClassRow) (s : Store) (warnings : List Warning) :
    rows.foldl c.admitClass (s, warnings) =
      let joined := rows.filterMap fun row => (c.trafficClass row).toOption
      (⟨s.policies, s.targets,
          joined.foldl (fun listed class' => insertClass class' listed) s.classes⟩,
        warnings ++ rows.filterMap c.classWarning?) := by
  induction rows generalizing s warnings with
  | nil => simp
  | cons row rows ih =>
    rw [List.foldl_cons, admitClass]
    cases h : c.trafficClass row <;>
      simp [ih, h, classWarning?, Except.toOption, Store.addClass]

theorem foldl_admitPolicy (rows : List PolicyRow) (s : Store) (warnings : List Warning) :
    rows.foldl (c.admitPolicy c.knownClasses) (s, warnings) =
      let joined := rows.filterMap fun row => (c.policy c.knownClasses row).toOption
      (⟨(joined.map Prod.fst).foldl (fun listed p => insertPolicy p listed) s.policies,
          s.targets ++ joined.flatMap Prod.snd, s.classes⟩,
        warnings ++ rows.filterMap c.policyWarning?) := by
  induction rows generalizing s warnings with
  | nil => simp
  | cons row rows ih =>
    rw [List.foldl_cons, admitPolicy]
    cases h : c.policy c.knownClasses row <;>
      simp [ih, h, policyWarning?, Except.toOption, Store.addPolicy, Store.foldl_addTarget]

/-- The store is made of what the rows are joined to, and the warnings are about the others. -/
theorem toStore_eq (c : Catalog) :
    c.toStore = (⟨insertPolicies (c.joinedPolicies.map Prod.fst),
        c.joinedPolicies.flatMap Prod.snd, insertClasses c.joinedClasses⟩,
      c.classes.filterMap c.classWarning? ++ c.orphanWindows ++ c.orphanTargets ++
        c.policies.filterMap c.policyWarning?) := by
  simp only [toStore, foldl_admitClass, foldl_admitPolicy, List.nil_append]
  rfl

theorem accepts_eq_isSome (row : PolicyRow) :
    decide (c.Accepts row) = (c.policy c.knownClasses row).toOption.isSome := by
  rw [isSome_toOption, Bool.eq_iff_iff, decide_eq_true_eq, isOk_policy_iff]

theorem validLinks_eq_isSome (row : ClassRow) :
    decide (c.ValidLinks row.id) = (c.trafficClass row).toOption.isSome := by
  rw [isSome_toOption, Bool.eq_iff_iff, decide_eq_true_eq, isOk_trafficClass_iff]

/-- The identities are listed in the order of the accepted rows, each once. -/
theorem map_id_policies_toStore :
    c.toStore.1.policies.map (·.id) =
      (c.acceptedRows.map fun row => EntityId.mk row.id).eraseDups := by
  have hjoined : (c.joinedPolicies.map Prod.fst).map (·.id) =
      c.acceptedRows.map fun row => EntityId.mk row.id := by
    rw [List.map_map]
    refine map_filterMap_eq accepts_eq_isSome (fun row joined h => ?_) c.policies
    exact (policy_eq_ok_iff.mp (toOption_eq_some_iff.mp h)).1.fields.id
  rw [toStore_eq, map_id_insertPolicies, hjoined]

theorem distinctIds_toStore : c.toStore.1.DistinctIds := by
  rw [toStore_eq]
  exact nodup_map_id_insertPolicies _

/-- The policy of an identity is what the last accepted row with it says. -/
theorem mem_policies_toStore {p : Policy} :
    p ∈ c.toStore.1.policies ↔
      ∃ row, IsLast PolicyRow.id c.acceptedRows p.id.value row ∧ c.JoinsPolicy row p := by
  have hid : ∀ row joined, (c.policy c.knownClasses row).toOption = some joined →
      decide (joined.1.id = p.id) = decide (row.id = p.id.value) := by
    intro row joined h
    rw [(policy_eq_ok_iff.mp (toOption_eq_some_iff.mp h)).1.fields.id, decide_eq_decide,
      EntityId.mk_eq_iff]
  rw [toStore_eq, mem_insertPolicies, ← List.map_reverse, List.find?_map, Option.map_eq_some_iff]
  simp only [joinedPolicies, Function.comp_def, find?_reverse_filterMap accepts_eq_isSome hid,
    toOption_eq_some_iff]
  constructor
  · rintro ⟨⟨q, ts⟩, ⟨row, hlast, hjoined⟩, rfl⟩
    exact ⟨row, hlast, (policy_eq_ok_iff.mp hjoined).1⟩
  · rintro ⟨row, hlast, hjoins⟩
    have haccepts := (mem_acceptedRows.mp hlast.mem.1).2
    obtain ⟨q, ts, hjoined⟩ := exists_policy_eq_ok_iff.mpr haccepts
    have hts := (policy_eq_ok_iff.mp hjoined).2
    exact ⟨(p, ts), ⟨row, hlast, policy_eq_ok_iff.mpr ⟨hjoins, hts⟩⟩, rfl⟩

/-- The traffic class of an identity is what its last row says, if its links are valid. -/
theorem class?_toStore {id : EntityId} {t : TrafficClass} :
    c.toStore.1.class? id = some t ↔
      ∃ row, IsLast ClassRow.id c.classes id.value row ∧ c.JoinsClass row t := by
  have hid : ∀ row t, (c.trafficClass row).toOption = some t →
      decide (t.id = id) = decide (row.id = id.value) := by
    intro row t h
    rw [(trafficClass_eq_ok_iff.mp (toOption_eq_some_iff.mp h)).id, decide_eq_decide,
      EntityId.mk_eq_iff]
  rw [toStore_eq, Store.class?, find?_insertClasses, joinedClasses,
    find?_reverse_filterMap validLinks_eq_isSome hid]
  simp only [toOption_eq_some_iff, trafficClass_eq_ok_iff,
    isLast_filter_iff (p := fun id => decide (c.ValidLinks id)), decide_eq_true_eq]
  refine exists_congr fun row => ⟨fun h => ⟨h.1.1, h.2⟩, fun h => ⟨⟨h.1, ?_⟩, h.2⟩⟩
  rw [← h.1.mem.2]
  exact exists_joinsClass_iff.mp ⟨t, h.2⟩

/-- A traffic class is found exactly for the identities of valid ones. -/
theorem exists_class?_toStore_iff {id : EntityId} :
    (∃ t, c.toStore.1.class? id = some t) ↔ c.ValidClass id.value := by
  simp only [class?_toStore]
  constructor
  · rintro ⟨t, row, hlast, hjoins⟩
    refine ⟨⟨row, hlast.mem⟩, ?_⟩
    rw [← hlast.mem.2]
    exact exists_joinsClass_iff.mp ⟨t, hjoins⟩
  · rintro ⟨⟨row, hrow, hid⟩, hlinks⟩
    have hsome : ∃ last, IsLast ClassRow.id c.classes row.id last := exists_isLast hrow
    obtain ⟨last, hlast⟩ := hsome
    rw [hid] at hlast
    rw [← hlast.mem.2] at hlinks
    obtain ⟨t, ht⟩ := exists_joinsClass_iff.mpr hlinks
    exact ⟨t, last, hlast, ht⟩

/-- The identities that are listed are those of the accepted rows. -/
theorem exists_listed_iff {id : EntityId} :
    (∃ p ∈ c.toStore.1.policies, p.id = id) ↔
      ∃ row ∈ c.policies, row.id = id.value ∧ c.Accepts row := by
  have hmap : (∃ p ∈ c.toStore.1.policies, p.id = id) ↔
      id ∈ c.toStore.1.policies.map (·.id) := List.mem_map.symm
  rw [hmap, map_id_policies_toStore, List.mem_eraseDups, List.mem_map]
  simp only [mem_acceptedRows, EntityId.mk_eq_iff, and_assoc, and_comm (a := c.Accepts _)]

theorem mem_targets_toStore {t : Target} :
    t ∈ c.toStore.1.targets ↔
      ∃ row ∈ c.acceptedRows, ∃ r ∈ c.targets, r.policy = row.id ∧ r.Spells t := by
  have hjoined : ∀ {row p ts}, c.policy c.knownClasses row = .ok (p, ts) →
      (t ∈ ts ↔ ∃ r ∈ c.targets, r.policy = row.id ∧ r.Spells t) := by
    intro row p ts h
    rw [mem_iff_of_forall₂ TargetRow.rightUnique_spells (policy_eq_ok_iff.mp h).2.1]
    simp only [List.mem_filter, decide_eq_true_eq, and_assoc]
  rw [toStore_eq, List.mem_flatMap]
  simp only [joinedPolicies, List.mem_filterMap, toOption_eq_some_iff, mem_acceptedRows]
  constructor
  · rintro ⟨⟨p, ts⟩, ⟨row, hrow, hok⟩, ht⟩
    exact ⟨row, ⟨hrow, exists_policy_eq_ok_iff.mp ⟨p, ts, hok⟩⟩, (hjoined hok).mp ht⟩
  · rintro ⟨row, ⟨hrow, haccepts⟩, hr⟩
    obtain ⟨p, ts, hok⟩ := exists_policy_eq_ok_iff.mpr haccepts
    exact ⟨(p, ts), ⟨row, hrow, hok⟩, (hjoined hok).mpr hr⟩

/-- The targets of a listed policy are what the rows of its targets spell. -/
theorem mem_targetsOf_toStore {id : EntityId} (hlisted : ∃ p ∈ c.toStore.1.policies, p.id = id)
    {t : Target} :
    t ∈ c.toStore.1.targetsOf id ↔ ∃ r ∈ c.targets, r.policy = id.value ∧ r.Spells t := by
  rw [Store.targetsOf, List.mem_filter, decide_eq_true_eq, mem_targets_toStore]
  constructor
  · rintro ⟨⟨row, -, r, hr, -, hspells⟩, rfl⟩
    exact ⟨r, hr, by rw [hspells.policy], hspells⟩
  · rintro ⟨r, hr, hpolicy, hspells⟩
    obtain ⟨row, hrow, hid, haccepts⟩ := exists_listed_iff.mp hlisted
    refine ⟨⟨row, mem_acceptedRows.mpr ⟨hrow, haccepts⟩, r, hr, hpolicy.trans hid.symm, hspells⟩,
      ?_⟩
    rw [hspells.policy, EntityId.mk_eq_iff, hpolicy]

/-- Every class that a target of a listed policy names is in the store. -/
theorem exists_trafficClass_of_mem_targetsOf {id : EntityId}
    (hlisted : ∃ p ∈ c.toStore.1.policies, p.id = id) {t : Target}
    (ht : t ∈ c.toStore.1.targetsOf id) {k : EntityId} (hk : t.trafficClass = some k) :
    ∃ t, c.toStore.1.source.trafficClass k = .ok t := by
  obtain ⟨r, hr, hpolicy, hspells⟩ := (mem_targetsOf_toStore hlisted).mp ht
  obtain ⟨row, -, hid, haccepts⟩ := exists_listed_iff.mp hlisted
  rw [hspells.trafficClass, Option.map_eq_some_iff] at hk
  obtain ⟨n, hn, rfl⟩ := hk
  simp only [Store.source_trafficClass_eq_ok_iff, exists_class?_toStore_iff]
  exact haccepts.classes r hr (hpolicy.trans hid.symm) n hn

end Catalog

end TrafficWarden
