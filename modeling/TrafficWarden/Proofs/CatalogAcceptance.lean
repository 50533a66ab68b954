import TrafficWarden.Proofs.CatalogStore

/-!
# What a catalog yields

A policy is in the store of a catalog if one of its rows is accepted, and every row that is left out
is warned about once, in the order of the tables. Acceptance is a condition on the rows alone:
numbers are in their ranges as they stand, texts spell what they should, and identities lead to
rows.
-/

namespace TrafficWarden

/-- A row that a warning can be about. -/
inductive CatalogRow where
  | trafficClass (row : ClassRow)
  | window (row : WindowRow)
  | target (row : TargetRow)
  | policy (row : PolicyRow)
deriving DecidableEq, Repr

/-- A warning names its row. The fault of a row that cannot be joined names it, too. -/
inductive CatalogRow.Warns : CatalogRow → Warning → Prop
  | trafficClass (row : ClassRow) (reason : String) :
    Warns (.trafficClass row)
      (.classDropped ⟨row.id⟩ row.name (.invalid .trafficClass ⟨row.id⟩ reason))
  | window (row : WindowRow) : Warns (.window row) (.windowDropped ⟨row.id⟩ ⟨row.policy⟩)
  | target (row : TargetRow) : Warns (.target row) (.targetDropped ⟨row.id⟩ ⟨row.policy⟩)
  | policy (row : PolicyRow) (reason : String) :
    Warns (.policy row) (.policyRejected ⟨row.id⟩ row.name (.invalid .policy ⟨row.id⟩ reason))

namespace Catalog

variable {c : Catalog}

/-- No row of a policy has the identity. -/
def NoPolicy (c : Catalog) (id : Int) : Prop := ∀ row ∈ c.policies, row.id ≠ id

instance (id : Int) : Decidable (c.NoPolicy id) :=
  inferInstanceAs (Decidable (∀ row ∈ c.policies, row.id ≠ id))

/-- The rows that are left out: classes with a bad link, windows and targets of no policy, and
policies that are not accepted. -/
def leftOut (c : Catalog) : List CatalogRow :=
  (c.classes.filter fun row => ¬ c.ValidLinks row.id).map .trafficClass ++
    (c.windows.filter fun row => c.NoPolicy row.policy).map .window ++
    (c.targets.filter fun row => c.NoPolicy row.policy).map .target ++
    (c.policies.filter fun row => ¬ c.Accepts row).map .policy

/-- A store and warnings are what the rows of a catalog say. -/
structure Yields (c : Catalog) (store : Store) (warnings : List Warning) : Prop where
  listed : ∀ id, (∃ p ∈ store.policies, p.id = id) ↔
    ∃ row ∈ c.policies, row.id = id.value ∧ c.Accepts row
  distinct : store.DistinctIds
  /-- The identities are in the order of their first accepted rows. -/
  order : store.policies.map (·.id) =
    (c.acceptedRows.map fun row => EntityId.mk row.id).eraseDups
  /-- The last accepted row counts. -/
  policies : ∀ p ∈ store.policies,
    ∃ row, IsLast PolicyRow.id c.acceptedRows p.id.value row ∧ c.JoinsPolicy row p
  targets : ∀ p ∈ store.policies, ∀ t, t ∈ store.targetsOf p.id ↔
    ∃ row ∈ c.targets, row.policy = p.id.value ∧ row.Spells t
  classes : ∀ id t, store.class? id = some t ↔
    ∃ row, IsLast ClassRow.id c.classes id.value row ∧ c.JoinsClass row t
  warnings : List.Forall₂ CatalogRow.Warns c.leftOut warnings

section warnings

theorem isSome_classWarning? (row : ClassRow) :
    decide (¬ c.ValidLinks row.id) = (c.classWarning? row).isSome := by
  rw [decide_not, validLinks_eq_isSome, classWarning?]
  cases c.trafficClass row <;> rfl

theorem isSome_policyWarning? (row : PolicyRow) :
    decide (¬ c.Accepts row) = (c.policyWarning? row).isSome := by
  rw [decide_not, accepts_eq_isSome, policyWarning?]
  cases c.policy c.knownClasses row <;> rfl

theorem warns_of_classWarning? (row : ClassRow) (w : Warning) (h : c.classWarning? row = some w) :
    CatalogRow.Warns (.trafficClass row) w := by
  unfold classWarning? at h
  cases hjoin : c.trafficClass row with
  | ok t => simp [hjoin] at h
  | error fault =>
    obtain ⟨reason, -, rfl⟩ := mapError_eq_error_iff.mp hjoin
    simp only [hjoin, Option.some.injEq] at h
    exact h ▸ .trafficClass row reason

theorem warns_of_policyWarning? (row : PolicyRow) (w : Warning)
    (h : c.policyWarning? row = some w) : CatalogRow.Warns (.policy row) w := by
  unfold policyWarning? at h
  cases hjoin : c.policy c.knownClasses row with
  | ok joined => simp [hjoin] at h
  | error fault =>
    obtain ⟨reason, -, rfl⟩ := mapError_eq_error_iff.mp hjoin
    simp only [hjoin, Option.some.injEq] at h
    exact h ▸ .policy row reason

theorem not_hasPolicy (id : Int) : (!c.hasPolicy id) = decide (c.NoPolicy id) := by
  rw [Bool.eq_iff_iff, decide_eq_true_eq]
  simp [hasPolicy, NoPolicy]

/-- There is one warning for each row that is left out. -/
theorem forall₂_warns_toStore : List.Forall₂ CatalogRow.Warns c.leftOut c.toStore.2 := by
  have hclasses : List.Forall₂ CatalogRow.Warns
      ((c.classes.filter fun row => ¬ c.ValidLinks row.id).map .trafficClass)
      (c.classes.filterMap c.classWarning?) := by
    rw [List.forall₂_map_left_iff]
    exact forall₂_filterMap isSome_classWarning? warns_of_classWarning? c.classes
  have hwindows : List.Forall₂ CatalogRow.Warns
      ((c.windows.filter fun row => c.NoPolicy row.policy).map .window) c.orphanWindows := by
    simp only [orphanWindows, not_hasPolicy, List.forall₂_map_left_iff, List.forall₂_map_right_iff,
      List.forall₂_same]
    exact fun row _ => .window row
  have htargets : List.Forall₂ CatalogRow.Warns
      ((c.targets.filter fun row => c.NoPolicy row.policy).map .target) c.orphanTargets := by
    simp only [orphanTargets, not_hasPolicy, List.forall₂_map_left_iff, List.forall₂_map_right_iff,
      List.forall₂_same]
    exact fun row _ => .target row
  have hpolicies : List.Forall₂ CatalogRow.Warns
      ((c.policies.filter fun row => ¬ c.Accepts row).map .policy)
      (c.policies.filterMap c.policyWarning?) := by
    rw [List.forall₂_map_left_iff]
    exact forall₂_filterMap isSome_policyWarning? warns_of_policyWarning? c.policies
  rw [toStore_eq, leftOut]
  exact List.rel_append (List.rel_append (List.rel_append hclasses hwindows) htargets) hpolicies

end warnings

/-- A catalog yields the accepted policies, with their last accepted values, and a warning for each
row that is left out. -/
theorem yields_toStore (c : Catalog) : c.Yields c.toStore.1 c.toStore.2 where
  listed _ := exists_listed_iff
  distinct := distinctIds_toStore
  order := map_id_policies_toStore
  policies _ hp := mem_policies_toStore.mp hp
  targets p hp _ := mem_targetsOf_toStore ⟨p, hp, rfl⟩
  classes _ _ := class?_toStore
  warnings := forall₂_warns_toStore

-- A cap of 2 ^ 32 is no cap of zero, and a later row does not move its identity.
example :
    let row (id : Int) (upload : Option Int) : PolicyRow :=
      ⟨id, "guests", none, true, none, upload, none⟩
    let c : Catalog := { (∅ : Catalog) with
      policies := [row 2 none, row 1 (some 0), row 2 (some 7), row 2 (some 4294967296)] }
    c.toStore.1.policies.map (fun p => (p.id.value, p.upload)) = [(2, some 7), (1, none)] ∧
      c.toStore.2.length = 1 := by
  decide +kernel

end Catalog

end TrafficWarden
