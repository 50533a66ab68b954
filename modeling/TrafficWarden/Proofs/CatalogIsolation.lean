import TrafficWarden.Proofs.CatalogStore

/-!
# Faults of a catalog stay where they are

Whatever is done to the rows of one policy, the store keeps all other policies, with their targets
and their order, and every traffic class. Whatever is done to the links of one traffic class, it
keeps all other classes, and every policy that does not name this one.
-/

namespace TrafficWarden

section inserts

variable (keep : EntityId → Bool)

theorem filter_insertPolicy (p : Policy) (listed : List Policy) :
    (insertPolicy p listed).filter (keep ·.id) =
      if keep p.id then insertPolicy p (listed.filter (keep ·.id))
      else listed.filter (keep ·.id) := by
  induction listed with
  | nil => cases h : keep p.id <;> simp [insertPolicy, h]
  | cons q rest ih =>
    by_cases hq : q.id = p.id
    · cases h : keep p.id <;> simp [insertPolicy, hq, h]
    · cases h : keep p.id <;> cases hkeep : keep q.id <;> simp [insertPolicy, hq, h, hkeep, ih]

theorem filter_insertPolicies (ps : List Policy) :
    (insertPolicies ps).filter (keep ·.id) = insertPolicies (ps.filter (keep ·.id)) := by
  induction ps using List.reverseRecOn with
  | nil => rfl
  | append_singleton ps p ih =>
    rw [insertPolicies_append_singleton, filter_insertPolicy, ih, List.filter_append]
    cases h : keep p.id
    · simp [h]
    · simp [h, insertPolicies_append_singleton]

/-- Classes are listed by increasing identity. -/
def IncreasingIds (cs : List TrafficClass) : Prop := cs.Pairwise (·.id.value < ·.id.value)

theorem mem_insertClass {c d : TrafficClass} {listed : List TrafficClass}
    (h : d ∈ insertClass c listed) : d = c ∨ d ∈ listed := by
  induction listed with
  | nil => exact .inl (List.mem_singleton.mp h)
  | cons e rest ih =>
    unfold insertClass at h
    split at h
    · exact List.mem_cons.mp h
    · split at h
      · rcases List.mem_cons.mp h with rfl | hrest
        · exact .inl rfl
        · exact .inr (List.mem_cons_of_mem e hrest)
      · rcases List.mem_cons.mp h with rfl | hrest
        · exact .inr List.mem_cons_self
        · exact (ih hrest).imp id (List.mem_cons_of_mem e)

theorem IncreasingIds.insertClass {listed : List TrafficClass} (h : IncreasingIds listed)
    (c : TrafficClass) : IncreasingIds (insertClass c listed) := by
  induction listed with
  | nil => exact List.pairwise_singleton _ c
  | cons d rest ih =>
    obtain ⟨hd, hrest⟩ := List.pairwise_cons.mp h
    unfold TrafficWarden.insertClass
    split
    · rename_i hlt
      refine List.pairwise_cons.mpr ⟨fun e he => ?_, h⟩
      rcases List.mem_cons.mp he with rfl | he
      · exact hlt
      · exact Int.lt_trans hlt (hd e he)
    · rename_i hge
      split
      · rename_i hid
        rw [← hid] at hd
        exact List.pairwise_cons.mpr ⟨hd, hrest⟩
      · rename_i hid
        have hne : c.id.value ≠ d.id.value := fun hvalue => hid (EntityId.mk_eq_iff.mpr hvalue)
        refine List.pairwise_cons.mpr ⟨fun e he => ?_, ih hrest⟩
        rcases mem_insertClass he with rfl | he
        · omega
        · exact hd e he

theorem increasingIds_insertClasses (cs : List TrafficClass) :
    IncreasingIds (insertClasses cs) := by
  induction cs using List.reverseRecOn with
  | nil => exact List.Pairwise.nil
  | append_singleton cs c ih =>
    rw [insertClasses_append_singleton]
    exact ih.insertClass c

theorem insertClass_of_lt {c : TrafficClass} {listed : List TrafficClass}
    (h : ∀ d ∈ listed, c.id.value < d.id.value) : insertClass c listed = c :: listed := by
  cases listed with
  | nil => rfl
  | cons d rest => exact if_pos (h d List.mem_cons_self)

theorem filter_insertClass (c : TrafficClass) {listed : List TrafficClass}
    (hlisted : IncreasingIds listed) :
    (insertClass c listed).filter (keep ·.id) =
      if keep c.id then insertClass c (listed.filter (keep ·.id))
      else listed.filter (keep ·.id) := by
  induction listed with
  | nil => cases h : keep c.id <;> simp [insertClass, h]
  | cons d rest ih =>
    obtain ⟨hd, hrest⟩ := List.pairwise_cons.mp hlisted
    by_cases hlt : c.id.value < d.id.value
    · -- `d` may not be kept, so `c` has to come before all that are
      have hall : ∀ e ∈ (d :: rest).filter (keep ·.id), c.id.value < e.id.value := by
        intro e he
        rcases List.mem_cons.mp (List.mem_of_mem_filter he) with rfl | he
        · exact hlt
        · exact Int.lt_trans hlt (hd e he)
      rw [insertClass, if_pos hlt, insertClass_of_lt hall]
      cases h : keep c.id <;> simp [h]
    · by_cases hid : c.id = d.id
      · cases h : keep d.id <;> simp [insertClass, hid, h]
      · cases h : keep c.id <;> cases hkeep : keep d.id <;>
          simp [insertClass, hlt, hid, h, hkeep, ih hrest]

theorem filter_insertClasses (cs : List TrafficClass) :
    (insertClasses cs).filter (keep ·.id) = insertClasses (cs.filter (keep ·.id)) := by
  induction cs using List.reverseRecOn with
  | nil => rfl
  | append_singleton cs c ih =>
    rw [insertClasses_append_singleton, filter_insertClass keep c (increasingIds_insertClasses cs),
      ih, List.filter_append]
    cases h : keep c.id
    · simp [h]
    · simp [h, insertClasses_append_singleton]

end inserts

section steps

variable {ε α β : Type}

theorem mapM_congr {f g : α → Except ε β} {items : List α} (h : ∀ a ∈ items, f a = g a) :
    items.mapM f = items.mapM g := by
  induction items with
  | nil => rfl
  | cons a items ih =>
    rw [List.forall_mem_cons] at h
    rw [List.mapM_cons, List.mapM_cons, h.1, ih h.2]

theorem filter_filterMap {f : α → Option β} {p : β → Bool} {q : α → Bool}
    (h : ∀ a b, f a = some b → p b = q a) (items : List α) :
    (items.filterMap f).filter p = (items.filter q).filterMap f := by
  induction items with
  | nil => rfl
  | cons a items ih =>
    cases ha : f a with
    | none => cases hq : q a <;> simp [ha, hq, ih]
    | some b => cases hq : q a <;> simp [ha, hq, h a b ha, ih]

theorem filter_flatMap {f : α → List β} {p : β → Bool} {q : α → Bool} {items : List α}
    (h : ∀ a ∈ items, ∀ b ∈ f a, p b = q a) :
    (items.flatMap f).filter p = (items.filter q).flatMap f := by
  induction items with
  | nil => rfl
  | cons a items ih =>
    rw [List.forall_mem_cons] at h
    rw [List.flatMap_cons, List.filter_append, ih h.2, List.filter_congr h.1, List.filter_cons]
    cases q a <;> simp

theorem filter_eq_of_filter_ne {key : α → Int} {rows rows' : List α} {id other : Int}
    (h : rows.filter (key · ≠ id) = rows'.filter (key · ≠ id)) (hother : other ≠ id) :
    rows.filter (key · = other) = rows'.filter (key · = other) := by
  have hnested : ∀ table : List α, table.filter (key · = other) =
      (table.filter (key · ≠ id)).filter (key · = other) := by
    intro table
    rw [List.filter_filter]
    refine List.filter_congr fun row _ => ?_
    by_cases hrow : key row = other <;> simp [hrow, hother]
  rw [hnested rows, hnested rows', h]

end steps

namespace ParameterBag

/-- A collection only reads the classes that its targets name. -/
theorem collect_congr {classOf classOf' : EntityId → Except Fault TrafficClass}
    {targets : List Target}
    (h : ∀ t ∈ targets, ∀ id, t.trafficClass = some id → classOf id = classOf' id)
    (b : ParameterBag) : collect classOf b targets = collect classOf' b targets := by
  induction targets generalizing b with
  | nil => rfl
  | cons t rest ih =>
    rw [List.forall_mem_cons] at h
    unfold collect
    cases ht : t.trafficClass with
    | none => exact ih h.2 _
    | some id =>
      simp only [h.1 id ht]
      cases classOf' id with
      | error fault => rfl
      | ok k => exact ih h.2 _

end ParameterBag

/-- Two stores have the same policies among those that are looked at, in the same order, each with
the same targets and the same parameters. -/
structure Store.AgreeOn (keep : EntityId → Bool) (s t : Store) : Prop where
  policies : s.policies.filter (keep ·.id) = t.policies.filter (keep ·.id)
  targets : ∀ id, keep id = true → s.targetsOf id = t.targetsOf id
  bags : ∀ id, keep id = true → s.source.bag id = t.source.bag id

theorem Store.class?_eq_of_filter_ne {s t : Store} {id other : EntityId}
    (h : s.classes.filter (·.id ≠ id) = t.classes.filter (·.id ≠ id)) (hother : other ≠ id) :
    s.class? other = t.class? other := by
  have hnested : ∀ s : Store, s.class? other =
      (s.classes.filter (·.id ≠ id)).find? (·.id = other) := by
    intro s
    rw [Store.class?, List.find?_filter]
    congr 1
    funext k
    by_cases hk : k.id = other <;> simp [hk, hother]
  rw [hnested s, hnested t, h]

namespace Catalog

/-- Two catalogs have the same rows, save those of one policy and of its windows and targets. -/
structure SameButPolicy (id : Int) (c d : Catalog) : Prop where
  classes : c.classes = d.classes
  cidrs : c.cidrs = d.cidrs
  ports : c.ports = d.ports
  classCidrs : c.classCidrs = d.classCidrs
  classPorts : c.classPorts = d.classPorts
  policies : c.policies.filter (·.id ≠ id) = d.policies.filter (·.id ≠ id)
  targets : c.targets.filter (·.policy ≠ id) = d.targets.filter (·.policy ≠ id)
  windows : c.windows.filter (·.policy ≠ id) = d.windows.filter (·.policy ≠ id)

/-- Two catalogs have the same rows, save the links of one traffic class. -/
structure SameButLinks (id : Int) (c d : Catalog) : Prop where
  classes : c.classes = d.classes
  cidrs : c.cidrs = d.cidrs
  ports : c.ports = d.ports
  classCidrs : c.classCidrs.filter (·.trafficClass ≠ id) = d.classCidrs.filter (·.trafficClass ≠ id)
  classPorts : c.classPorts.filter (·.trafficClass ≠ id) = d.classPorts.filter (·.trafficClass ≠ id)
  policies : c.policies = d.policies
  targets : c.targets = d.targets
  windows : c.windows = d.windows

/-- A row of a target of a policy names a traffic class, be the row valid or not. -/
def TargetsClass (c : Catalog) (policy : EntityId) (id : Int) : Prop :=
  ∃ t ∈ c.targets, t.policy = policy.value ∧ t.trafficClass = some id

instance (c : Catalog) (policy : EntityId) (id : Int) : Decidable (c.TargetsClass policy id) :=
  inferInstanceAs (Decidable (∃ t ∈ c.targets, t.policy = policy.value ∧ t.trafficClass = some id))

variable {c d : Catalog}

section classes

theorem trafficClass_congr {row : ClassRow} (hcidrs : c.cidrs = d.cidrs)
    (hports : c.ports = d.ports)
    (hclassCidrs : c.classCidrs.filter (·.trafficClass = row.id) =
      d.classCidrs.filter (·.trafficClass = row.id))
    (hclassPorts : c.classPorts.filter (·.trafficClass = row.id) =
      d.classPorts.filter (·.trafficClass = row.id)) :
    c.trafficClass row = d.trafficClass row := by
  have hsubnet : c.classSubnet = d.classSubnet := by
    funext link
    simp only [classSubnet, cidr, hcidrs]
  have hport : c.classPort = d.classPort := by
    funext link
    simp only [classPort, port, hports]
  simp only [trafficClass, hclassCidrs, hclassPorts, hsubnet, hport]

theorem validClass_congr {id : Int} (hclasses : c.classes = d.classes)
    (h : ∀ row ∈ d.classes, row.id = id → c.trafficClass row = d.trafficClass row) :
    c.ValidClass id ↔ d.ValidClass id := by
  simp only [← mem_knownClasses, knownClasses, List.mem_map, List.mem_filter, hclasses]
  refine exists_congr fun row => and_congr_left fun hid => and_congr_right fun hrow => ?_
  rw [h row hrow hid]

theorem filter_classes_toStore (keep : EntityId → Bool) :
    c.toStore.1.classes.filter (keep ·.id) = insertClasses
      ((c.classes.filter fun row => keep ⟨row.id⟩).filterMap fun row =>
        (c.trafficClass row).toOption) := by
  have hid : ∀ row t, (c.trafficClass row).toOption = some t → keep t.id = keep ⟨row.id⟩ := by
    intro row t h
    rw [(trafficClass_eq_ok_iff.mp (toOption_eq_some_iff.mp h)).id]
  rw [toStore_eq, filter_insertClasses, joinedClasses, filter_filterMap hid]

theorem filter_classes_congr (keep : EntityId → Bool) (hclasses : c.classes = d.classes)
    (h : ∀ row ∈ d.classes, keep ⟨row.id⟩ = true → c.trafficClass row = d.trafficClass row) :
    c.toStore.1.classes.filter (keep ·.id) = d.toStore.1.classes.filter (keep ·.id) := by
  rw [filter_classes_toStore, filter_classes_toStore, hclasses]
  congr 1
  refine List.filterMap_congr fun row hrow => ?_
  obtain ⟨hmem, hkeep⟩ := List.mem_filter.mp hrow
  rw [h row hmem hkeep]

end classes

section policies

/-- A policy is joined from its own windows and targets. Of the traffic classes it only matters
whether those that it names are valid. -/
theorem policy_congr {row : PolicyRow}
    (hwindows : c.windows.filter (·.policy = row.id) = d.windows.filter (·.policy = row.id))
    (htargets : c.targets.filter (·.policy = row.id) = d.targets.filter (·.policy = row.id))
    (hclasses : ∀ t ∈ d.targets, t.policy = row.id → ∀ id, t.trafficClass = some id →
      (c.ValidClass id ↔ d.ValidClass id)) :
    c.policy c.knownClasses row = d.policy d.knownClasses row := by
  have hread : ∀ t ∈ d.targets.filter (·.policy = row.id),
      TargetRow.read c.knownClasses t = TargetRow.read d.knownClasses t := by
    intro t ht
    rw [List.mem_filter, decide_eq_true_eq] at ht
    cases hclass : t.trafficClass with
    | none => simp only [TargetRow.read, hclass]
    | some id =>
      have hknown : id ∈ c.knownClasses ↔ id ∈ d.knownClasses := by
        rw [mem_knownClasses, mem_knownClasses, hclasses t ht.1 ht.2 id hclass]
      simp only [TargetRow.read, hclass, hknown]
  unfold policy PolicyRow.read
  rw [hwindows, htargets, mapM_congr hread]

theorem targetsOf_toStore (id : EntityId) :
    c.toStore.1.targetsOf id = (c.joinedPolicies.filter (·.1.id = id)).flatMap Prod.snd := by
  have howner : ∀ joined ∈ c.joinedPolicies, ∀ t ∈ joined.2, t.policy = joined.1.id := by
    intro joined hjoined t ht
    obtain ⟨row, -, hok⟩ := List.mem_filterMap.mp hjoined
    obtain ⟨hjoins, htargets, -⟩ := policy_eq_ok_iff.mp (toOption_eq_some_iff.mp hok)
    obtain ⟨r, hr, hspells⟩ := (mem_iff_of_forall₂ TargetRow.rightUnique_spells htargets).mp ht
    rw [hspells.policy, hjoins.fields.id, of_decide_eq_true (List.mem_filter.mp hr).2]
  rw [toStore_eq, Store.targetsOf]
  refine filter_flatMap fun joined hjoined t ht => ?_
  rw [howner joined hjoined t ht]

theorem filter_joinedPolicies_congr {keep : EntityId → Bool}
    (hpolicies : (c.policies.filter fun row => keep ⟨row.id⟩) =
      d.policies.filter fun row => keep ⟨row.id⟩)
    (h : ∀ row, keep ⟨row.id⟩ = true →
      c.policy c.knownClasses row = d.policy d.knownClasses row) :
    c.joinedPolicies.filter (keep ·.1.id) = d.joinedPolicies.filter (keep ·.1.id) := by
  have hid : ∀ (c : Catalog) row joined, (c.policy c.knownClasses row).toOption = some joined →
      keep joined.1.id = keep ⟨row.id⟩ := by
    intro c row joined hok
    rw [(policy_eq_ok_iff.mp (toOption_eq_some_iff.mp hok)).1.fields.id]
  rw [joinedPolicies, joinedPolicies, filter_filterMap (hid c), filter_filterMap (hid d), hpolicies]
  refine List.filterMap_congr fun row hrow => ?_
  rw [h row (List.mem_filter.mp hrow).2]

/-- Stores agree on the policies whose rows are joined alike, if the classes that these name are
found alike. -/
theorem agreeOn_of_policy_eq {keep : EntityId → Bool}
    (hrows : (c.policies.filter fun row => keep ⟨row.id⟩) =
      d.policies.filter fun row => keep ⟨row.id⟩)
    (hpolicy : ∀ row, keep ⟨row.id⟩ = true →
      c.policy c.knownClasses row = d.policy d.knownClasses row)
    (hclasses : ∀ id, keep id = true → ∀ t ∈ d.toStore.1.targetsOf id, ∀ k,
      t.trafficClass = some k → c.toStore.1.class? k = d.toStore.1.class? k) :
    c.toStore.1.AgreeOn keep d.toStore.1 := by
  have hjoined := filter_joinedPolicies_congr hrows hpolicy
  have hpolicies : c.toStore.1.policies.filter (keep ·.id) =
      d.toStore.1.policies.filter (keep ·.id) := by
    rw [toStore_eq, toStore_eq, filter_insertPolicies, filter_insertPolicies, List.filter_map,
      List.filter_map]
    simp only [Function.comp_def, hjoined]
  have htargets : ∀ id, keep id = true → c.toStore.1.targetsOf id = d.toStore.1.targetsOf id := by
    intro id hkeep
    -- the targets of one policy are among those of the policies that are looked at
    have hnested : ∀ joined : List (Policy × List Target), joined.filter (·.1.id = id) =
        (joined.filter (keep ·.1.id)).filter (·.1.id = id) := by
      intro joined
      rw [List.filter_filter]
      refine List.filter_congr fun p _ => ?_
      by_cases hp : p.1.id = id <;> simp [hp, hkeep]
    rw [targetsOf_toStore, targetsOf_toStore, hnested, hjoined, ← hnested]
  refine ⟨hpolicies, htargets, fun id hkeep => ?_⟩
  unfold PolicySource.bag Store.source
  simp only [htargets id hkeep]
  refine ParameterBag.collect_congr (fun t ht k hk => ?_) ∅
  simp only [hclasses id hkeep t ht k hk]

theorem targetsClass_of_mem_targetsOf {policy k : EntityId} {t : Target}
    (ht : t ∈ c.toStore.1.targetsOf policy) (hk : t.trafficClass = some k) :
    c.TargetsClass policy k.value := by
  obtain ⟨hmem, howner⟩ := List.mem_filter.mp ht
  obtain ⟨row, -, r, hr, -, hspells⟩ := mem_targets_toStore.mp hmem
  rw [decide_eq_true_eq, hspells.policy] at howner
  rw [hspells.trafficClass, Option.map_eq_some_iff] at hk
  obtain ⟨n, hn, rfl⟩ := hk
  exact ⟨r, hr, EntityId.mk_eq_iff.mp howner, hn⟩

end policies

/-- What is done to the rows of one policy leaves all else as it is. -/
theorem SameButPolicy.agreeOn {id : Int} (h : SameButPolicy id c d) :
    c.toStore.1.AgreeOn (· ≠ ⟨id⟩) d.toStore.1 ∧ c.toStore.1.classes = d.toStore.1.classes := by
  have hclass : ∀ row, c.trafficClass row = d.trafficClass row := fun row =>
    trafficClass_congr h.cidrs h.ports (by rw [h.classCidrs]) (by rw [h.classPorts])
  -- no row of a policy makes a class known, so the other policies see the same classes
  have hvalid : ∀ k, c.ValidClass k ↔ d.ValidClass k := fun k =>
    validClass_congr h.classes fun row _ _ => hclass row
  have hclasses : c.toStore.1.classes = d.toStore.1.classes := by
    have hall := filter_classes_congr (fun _ => true) h.classes fun row _ _ => hclass row
    rwa [List.filter_true, List.filter_true] at hall
  have hother : ∀ k : Int, decide (EntityId.mk k ≠ ⟨id⟩) = decide (k ≠ id) := by
    intro k
    rw [decide_eq_decide, ne_eq, EntityId.mk.injEq]
  refine ⟨agreeOn_of_policy_eq ?_ (fun row hrow => ?_) ?_, hclasses⟩
  · simpa only [hother] using h.policies
  · rw [hother, decide_eq_true_eq] at hrow
    exact policy_congr (filter_eq_of_filter_ne h.windows hrow)
      (filter_eq_of_filter_ne h.targets hrow) fun _ _ _ k _ => hvalid k
  · intro _ _ _ _ k _
    rw [Store.class?, Store.class?, hclasses]

/-- What is done to the links of one traffic class leaves the others as they are, and the policies
that do not name it. -/
theorem SameButLinks.agreeOn {id : Int} (h : SameButLinks id c d) :
    c.toStore.1.classes.filter (·.id ≠ ⟨id⟩) = d.toStore.1.classes.filter (·.id ≠ ⟨id⟩) ∧
      c.toStore.1.AgreeOn (fun policy => ¬ d.TargetsClass policy id) d.toStore.1 := by
  have hclass : ∀ row : ClassRow, row.id ≠ id → c.trafficClass row = d.trafficClass row :=
    fun row hrow => trafficClass_congr h.cidrs h.ports
      (filter_eq_of_filter_ne h.classCidrs hrow) (filter_eq_of_filter_ne h.classPorts hrow)
  have hclasses : c.toStore.1.classes.filter (·.id ≠ ⟨id⟩) =
      d.toStore.1.classes.filter (·.id ≠ ⟨id⟩) := by
    refine filter_classes_congr (· ≠ ⟨id⟩) h.classes fun row _ hrow => hclass row ?_
    simpa using hrow
  refine ⟨hclasses, agreeOn_of_policy_eq ?_ (fun row hrow => ?_) ?_⟩
  · rw [h.policies]
  · have hnot : ¬ d.TargetsClass ⟨row.id⟩ id := of_decide_eq_true hrow
    refine policy_congr (by rw [h.windows]) (by rw [h.targets]) fun t ht howner k hk => ?_
    have hne : k ≠ id := by
      rintro rfl
      exact hnot ⟨t, ht, howner, hk⟩
    exact validClass_congr h.classes fun row _ hid => hclass row (hid ▸ hne)
  · intro policy hpolicy t ht k hk
    have hnot : ¬ d.TargetsClass policy id := of_decide_eq_true hpolicy
    have hne : k ≠ ⟨id⟩ := by
      rintro rfl
      exact hnot (targetsClass_of_mem_targetsOf ht hk)
    exact Store.class?_eq_of_filter_ne hclasses hne

/-- Faults stay where they are: two catalogs that differ in the rows of one policy have stores that
agree on all other policies and on the classes, and two that differ in the links of one class have
stores that agree on all other classes and on the policies that do not name this one. -/
theorem faults_isolated (c d : Catalog) (id : Int) :
    (SameButPolicy id c d →
      c.toStore.1.AgreeOn (· ≠ ⟨id⟩) d.toStore.1 ∧ c.toStore.1.classes = d.toStore.1.classes) ∧
    (SameButLinks id c d →
      c.toStore.1.classes.filter (·.id ≠ ⟨id⟩) = d.toStore.1.classes.filter (·.id ≠ ⟨id⟩) ∧
        c.toStore.1.AgreeOn (fun policy => ¬ d.TargetsClass policy id) d.toStore.1) :=
  ⟨SameButPolicy.agreeOn, SameButLinks.agreeOn⟩

/-- The second row of policy 7 is accepted in the first catalog, and none in the second one, where a
window of it ends before it starts. A link of class 7 leads nowhere in the third one. -/
theorem faults_isolated_between_offices :
    let c : Catalog := {
      classes := [⟨7, "web", "", 1, true⟩, ⟨2, "mail", "", 1, true⟩]
      cidrs := [⟨1, "10.0.0.0", 8⟩]
      ports := [⟨1, 80, 6⟩]
      classCidrs := [⟨2, 1, "i"⟩, ⟨7, 1, "o"⟩]
      classPorts := [⟨7, 1, "o"⟩]
      policies := [⟨7, "guests", none, true, some 2, none, none⟩,
        ⟨9, "staff", none, true, some 1, none, none⟩, ⟨7, "guests", none, true, none, none, none⟩]
      targets := [⟨1, 9, some 2, "o", none⟩, ⟨2, 7, some 7, "d", none⟩]
      windows := [⟨1, 9, 1, "08:00", "17:00"⟩] }
    let d : Catalog := { c with
      policies := [⟨9, "staff", none, true, some 1, none, none⟩,
        ⟨7, "guests", none, true, none, none, none⟩]
      targets := [⟨1, 9, some 2, "o", none⟩, ⟨3, 7, some 4, "x", some "mac"⟩]
      windows := [⟨2, 7, 1, "17:00", "08:00"⟩, ⟨1, 9, 1, "08:00", "17:00"⟩] }
    let e : Catalog := { c with
      classCidrs := [⟨7, 3, "o"⟩, ⟨2, 1, "i"⟩]
      classPorts := [] }
    (SameButPolicy 7 c d ∧
      c.toStore.1.AgreeOn (· ≠ ⟨7⟩) d.toStore.1 ∧ c.toStore.1.classes = d.toStore.1.classes) ∧
    SameButLinks 7 c e ∧
      c.toStore.1.classes.filter (·.id ≠ ⟨7⟩) = e.toStore.1.classes.filter (·.id ≠ ⟨7⟩) ∧
      c.toStore.1.AgreeOn (fun policy => ¬ e.TargetsClass policy 7) e.toStore.1 := by
  intro c d e
  have hpolicy : SameButPolicy 7 c d := ⟨rfl, rfl, rfl, rfl, rfl, rfl, rfl, rfl⟩
  have hlinks : SameButLinks 7 c e := ⟨rfl, rfl, rfl, rfl, rfl, rfl, rfl, rfl⟩
  exact ⟨⟨hpolicy, (faults_isolated c d 7).1 hpolicy⟩, hlinks, (faults_isolated c e 7).2 hlinks⟩

end Catalog

end TrafficWarden
