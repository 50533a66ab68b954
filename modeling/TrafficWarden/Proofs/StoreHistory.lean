import TrafficWarden.Proofs.CatalogIsolation

/-!
# What a store answers after inserts

Policies and traffic classes are kept by identity, and the last one inserted counts: policies in the
order in which their identities came first, classes by increasing identity. Targets are kept as they
come. An insert of one kind has no effect on the answers about the other kinds.
-/

namespace TrafficWarden

section lists

variable {α : Type}

/-- The first occurrences stand in the order in which they come. -/
theorem pairwise_idxOf_eraseDups [DecidableEq α] (items : List α) :
    items.eraseDups.Pairwise fun a b => items.idxOf a < items.idxOf b := by
  induction items using List.reverseRecOn with
  | nil => exact List.Pairwise.nil
  | append_singleton items a ih =>
    have hkept : items.eraseDups.Pairwise fun b c =>
        (items ++ [a]).idxOf b < (items ++ [a]).idxOf c := by
      apply ih.imp_of_mem
      intro b c hb hc hlt
      rw [List.idxOf_append_of_mem (List.mem_eraseDups.mp hb),
        List.idxOf_append_of_mem (List.mem_eraseDups.mp hc)]
      exact hlt
    by_cases h : a ∈ items
    · rw [eraseDups_append_of_mem h]
      exact hkept
    · rw [eraseDups_append_of_not_mem h]
      apply List.pairwise_append.mpr
      refine ⟨hkept, List.pairwise_singleton _ a, ?_⟩
      intro b hb c hc
      have hmem : b ∈ items := List.mem_eraseDups.mp hb
      have hlt : items.idxOf b < items.length := List.idxOf_lt_length_of_mem hmem
      rw [List.mem_singleton.mp hc, List.idxOf_append_of_mem hmem, List.idxOf_append_of_notMem h]
      omega

theorem filterMap_cons_toList {β : Type} (f : α → Option β) (a : α) (items : List α) :
    (a :: items).filterMap f = (f a).toList ++ items.filterMap f := by
  rw [List.filterMap_cons]
  cases f a <;> rfl

end lists

theorem find?_reverse_id_eq_some_iff {α : Type} {key : α → EntityId} {rows : List α}
    {id : EntityId} {row : α} :
    rows.reverse.find? (fun r => decide (key r = id)) = some row ↔
      IsLast (fun r => (key r).value) rows id.value row := by
  rw [← find?_reverse_eq_some_iff]
  simp only [← EntityId.mk_eq_iff]

theorem find?_reverse_id_eq_none_iff {α : Type} {key : α → EntityId} {rows : List α}
    {id : EntityId} :
    rows.reverse.find? (fun r => decide (key r = id)) = none ↔ id ∉ rows.map key := by
  simp

/-- Of the items with an identity, a list has the one that was inserted last, once. -/
structure KeepsLatest {α : Type} (key : α → EntityId) (inserted listed : List α) : Prop where
  once : ∀ id, (listed.map key).count id = if id ∈ inserted.map key then 1 else 0
  last : ∀ a, a ∈ listed ↔ IsLast (fun b => (key b).value) inserted (key a).value a

theorem keepsLatest_of_find? {α : Type} {key : α → EntityId} {inserted listed : List α}
    (hnodup : (listed.map key).Nodup)
    (hfind : ∀ id, listed.find? (fun a => decide (key a = id)) =
      inserted.reverse.find? fun a => decide (key a = id)) :
    KeepsLatest key inserted listed where
  once id := by
    have hmem : id ∈ listed.map key ↔ id ∈ inserted.map key := by
      have hnone : listed.find? (fun a => decide (key a = id)) = none ↔ id ∉ inserted.map key := by
        rw [hfind id]
        exact find?_reverse_id_eq_none_iff
      simpa using not_iff_not.mpr hnone
    rw [hnodup.count]
    exact if_congr hmem rfl rfl
  last a := by
    rw [mem_iff_find?_of_nodup hnodup, hfind]
    exact find?_reverse_id_eq_some_iff

theorem IncreasingIds.nodup_map_id {cs : List TrafficClass} (h : IncreasingIds cs) :
    (cs.map (·.id)).Nodup := by
  apply List.pairwise_map.mpr
  apply h.imp
  intro c d hlt heq
  rw [heq] at hlt
  omega

namespace StoreInsert

@[simp] def policy? : StoreInsert → Option Policy
  | policy p => some p
  | _ => none

@[simp] def target? : StoreInsert → Option Target
  | target t => some t
  | _ => none

@[simp] def trafficClass? : StoreInsert → Option TrafficClass
  | trafficClass c => some c
  | _ => none

end StoreInsert

namespace Store

def insertedPolicies (inserts : List StoreInsert) : List Policy :=
  inserts.filterMap StoreInsert.policy?

def insertedTargets (inserts : List StoreInsert) : List Target :=
  inserts.filterMap StoreInsert.target?

def insertedClasses (inserts : List StoreInsert) : List TrafficClass :=
  inserts.filterMap StoreInsert.trafficClass?

section containers

variable (inserts later : List StoreInsert) (i : StoreInsert)

@[simp] theorem insertedPolicies_nil : insertedPolicies [] = [] := rfl

@[simp] theorem insertedPolicies_cons :
    insertedPolicies (i :: inserts) = i.policy?.toList ++ insertedPolicies inserts :=
  filterMap_cons_toList _ i inserts

@[simp] theorem insertedPolicies_append :
    insertedPolicies (inserts ++ later) = insertedPolicies inserts ++ insertedPolicies later :=
  List.filterMap_append

@[simp] theorem insertedTargets_nil : insertedTargets [] = [] := rfl

@[simp] theorem insertedTargets_cons :
    insertedTargets (i :: inserts) = i.target?.toList ++ insertedTargets inserts :=
  filterMap_cons_toList _ i inserts

@[simp] theorem insertedTargets_append :
    insertedTargets (inserts ++ later) = insertedTargets inserts ++ insertedTargets later :=
  List.filterMap_append

@[simp] theorem insertedClasses_nil : insertedClasses [] = [] := rfl

@[simp] theorem insertedClasses_cons :
    insertedClasses (i :: inserts) = i.trafficClass?.toList ++ insertedClasses inserts :=
  filterMap_cons_toList _ i inserts

@[simp] theorem insertedClasses_append :
    insertedClasses (inserts ++ later) = insertedClasses inserts ++ insertedClasses later :=
  List.filterMap_append

theorem ofInserts_append_singleton : ofInserts (inserts ++ [i]) = (ofInserts inserts).insert i := by
  rw [ofInserts, List.foldl_append]
  rfl

/-- Each kind of insert goes to its own container. -/
theorem ofInserts_eq :
    ofInserts inserts = ⟨insertPolicies (insertedPolicies inserts), insertedTargets inserts,
      insertClasses (insertedClasses inserts)⟩ := by
  induction inserts using List.reverseRecOn with
  | nil => rfl
  | append_singleton inserts i ih =>
    rw [ofInserts_append_singleton, ih]
    cases i with
    | policy p => simp [insert, addPolicy, insertPolicies_append_singleton]
    | target t => simp [insert, addTarget]
    | trafficClass c => simp [insert, addClass, insertClasses_append_singleton]

theorem classes_ofInserts :
    (ofInserts inserts).classes = insertClasses (insertedClasses inserts) := by
  rw [ofInserts_eq]

theorem source_ofInserts_policies :
    (ofInserts inserts).source.policies = .ok (insertPolicies (insertedPolicies inserts)) := by
  rw [ofInserts_eq]
  rfl

theorem source_ofInserts_policy (id : EntityId) :
    (ofInserts inserts).source.policy id =
      orNotFound .policy id ((insertedPolicies inserts).reverse.find? (·.id = id)) := by
  rw [PolicySource.policy, source_ofInserts_policies, ← find?_insertPolicies]
  rfl

theorem source_ofInserts_targets (id : EntityId) :
    (ofInserts inserts).source.targets id =
      .ok ((insertedTargets inserts).filter (·.policy = id)) := by
  rw [ofInserts_eq]
  rfl

theorem source_ofInserts_trafficClass (id : EntityId) :
    (ofInserts inserts).source.trafficClass id =
      orNotFound .trafficClass id ((insertedClasses inserts).reverse.find? (·.id = id)) := by
  rw [ofInserts_eq, ← find?_insertClasses]
  rfl

section between

variable (before after : List StoreInsert)

/-- The insert of a policy among others changes the policies only. -/
theorem ofInserts_policy_between (p : Policy) :
    let s' := ofInserts (before ++ .policy p :: after)
    s' = { ofInserts (before ++ after) with policies := s'.policies } := by
  intro s'
  simp [s', ofInserts_eq]

theorem ofInserts_target_between (t : Target) :
    let s' := ofInserts (before ++ .target t :: after)
    s' = { ofInserts (before ++ after) with targets := s'.targets } := by
  intro s'
  simp [s', ofInserts_eq]

theorem ofInserts_class_between (c : TrafficClass) :
    let s' := ofInserts (before ++ .trafficClass c :: after)
    s' = { ofInserts (before ++ after) with classes := s'.classes } := by
  intro s'
  simp [s', ofInserts_eq]

end between

end containers

theorem keepsLatest_insertPolicies (ps : List Policy) :
    KeepsLatest (·.id) ps (insertPolicies ps) :=
  keepsLatest_of_find? (nodup_map_id_insertPolicies ps) (find?_insertPolicies ps)

theorem keepsLatest_insertClasses (cs : List TrafficClass) :
    KeepsLatest (·.id) cs (insertClasses cs) :=
  keepsLatest_of_find? (increasingIds_insertClasses cs).nodup_map_id (find?_insertClasses cs)

/-- Whatever is inserted in which order, the policies are listed in the order in which their
identities came first, the classes by increasing identity, each identity once and as it was inserted
last; the targets of a policy are listed as they came, whether or not there is such a policy. What
was never inserted is not found. An insert changes no answer about the other kinds, wherever it
stands among the others. -/
theorem answers_of_inserts (before after : List StoreInsert) :
    let inserts := before ++ after
    let s := ofInserts inserts
    let ps := insertedPolicies inserts
    let ts := insertedTargets inserts
    let cs := insertedClasses inserts
    (∃ listed, s.source.policies = .ok listed ∧ KeepsLatest (·.id) ps listed ∧
        (listed.map (·.id)).Pairwise fun i j =>
          (ps.map (·.id)).idxOf i < (ps.map (·.id)).idxOf j) ∧
      (∀ id p, s.source.policy id = .ok p ↔ IsLast (·.id.value) ps id.value p) ∧
      (∀ id, s.source.policy id = .error (.notFound .policy id) ↔ id ∉ ps.map (·.id)) ∧
      (∀ id, s.source.targets id = .ok (ts.filter (·.policy = id))) ∧
      (∀ id c, s.source.trafficClass id = .ok c ↔ IsLast (·.id.value) cs id.value c) ∧
      (∀ id, s.source.trafficClass id = .error (.notFound .trafficClass id) ↔
        id ∉ cs.map (·.id)) ∧
      KeepsLatest (·.id) cs s.classes ∧ IncreasingIds s.classes ∧
      (∀ p, let s' := ofInserts (before ++ .policy p :: after)
        s'.source.targets = s.source.targets ∧ s'.classes = s.classes ∧
          s'.source.trafficClass = s.source.trafficClass) ∧
      (∀ t, let s' := ofInserts (before ++ .target t :: after)
        s'.source.policies = s.source.policies ∧ s'.source.policy = s.source.policy ∧
          s'.classes = s.classes ∧ s'.source.trafficClass = s.source.trafficClass) ∧
      ∀ c, let s' := ofInserts (before ++ .trafficClass c :: after)
        s'.source.policies = s.source.policies ∧ s'.source.policy = s.source.policy ∧
          s'.source.targets = s.source.targets := by
  intro inserts s ps ts cs
  refine ⟨?_, ?_, ?_, ?_, ?_, ?_, ?_, ?_, ?_, ?_, ?_⟩
  · refine ⟨_, source_ofInserts_policies inserts, keepsLatest_insertPolicies ps, ?_⟩
    rw [map_id_insertPolicies]
    exact pairwise_idxOf_eraseDups _
  · intro id p
    rw [source_ofInserts_policy, orNotFound_eq_ok_iff]
    exact find?_reverse_id_eq_some_iff
  · intro id
    rw [source_ofInserts_policy, orNotFound_eq_error_iff]
    exact find?_reverse_id_eq_none_iff
  · exact source_ofInserts_targets inserts
  · intro id c
    rw [source_ofInserts_trafficClass, orNotFound_eq_ok_iff]
    exact find?_reverse_id_eq_some_iff
  · intro id
    rw [source_ofInserts_trafficClass, orNotFound_eq_error_iff]
    exact find?_reverse_id_eq_none_iff
  · rw [classes_ofInserts]
    exact keepsLatest_insertClasses cs
  · rw [classes_ofInserts]
    exact increasingIds_insertClasses cs
  · intro p s'
    have hframe : s' = { s with policies := s'.policies } := ofInserts_policy_between before after p
    rw [hframe]
    exact ⟨rfl, rfl, rfl⟩
  · intro t s'
    have hframe : s' = { s with targets := s'.targets } := ofInserts_target_between before after t
    rw [hframe]
    exact ⟨rfl, rfl, rfl, rfl⟩
  · intro c s'
    have hframe : s' = { s with classes := s'.classes } := ofInserts_class_between before after c
    rw [hframe]
    exact ⟨rfl, rfl, rfl⟩

end Store

end TrafficWarden
