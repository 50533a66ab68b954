import TrafficWarden.Catalog.Document

/-!
# Numbers in rows

The numbers in the rows of a catalog that was read fit in 64 bits.
-/

namespace TrafficWarden

open Node Fields Catalog
open Text (Bounds)

/-- Whether integers fit in the fields of rows. -/
def AllFit (numbers : List Int) : Prop := ∀ n ∈ numbers, Bounds.int64.admits n = true

@[simp] theorem allFit_nil : AllFit [] := fun _ hn => absurd hn List.not_mem_nil

@[simp] theorem allFit_cons {n : Int} {numbers : List Int} :
    AllFit (n :: numbers) ↔ Bounds.int64.admits n = true ∧ AllFit numbers :=
  List.forall_mem_cons

@[simp] theorem allFit_append {numbers others : List Int} :
    AllFit (numbers ++ others) ↔ AllFit numbers ∧ AllFit others :=
  List.forall_mem_append

@[simp] def ClassRow.integers (r : ClassRow) : List Int := [r.id, r.kind]

@[simp] def CidrRow.integers (r : CidrRow) : List Int := [r.id, r.length]

@[simp] def PortRow.integers (r : PortRow) : List Int := [r.id, r.number, r.protocol]

@[simp] def ClassCidrRow.integers (r : ClassCidrRow) : List Int := [r.trafficClass, r.cidr]

@[simp] def ClassPortRow.integers (r : ClassPortRow) : List Int := [r.trafficClass, r.port]

@[simp] def PolicyRow.integers (r : PolicyRow) : List Int :=
  r.id :: (r.priority.toList ++ r.upload.toList ++ r.download.toList)

@[simp] def TargetRow.integers (r : TargetRow) : List Int :=
  r.id :: r.policy :: r.trafficClass.toList

@[simp] def WindowRow.integers (r : WindowRow) : List Int := [r.id, r.policy, r.weekday]

/-- A catalog whose numbers fit in the fields of its rows. -/
structure Catalog.Fits (c : Catalog) : Prop where
  classes : ∀ r ∈ c.classes, AllFit r.integers
  cidrs : ∀ r ∈ c.cidrs, AllFit r.integers
  ports : ∀ r ∈ c.ports, AllFit r.integers
  classCidrs : ∀ r ∈ c.classCidrs, AllFit r.integers
  classPorts : ∀ r ∈ c.classPorts, AllFit r.integers
  policies : ∀ r ∈ c.policies, AllFit r.integers
  targets : ∀ r ∈ c.targets, AllFit r.integers
  windows : ∀ r ∈ c.windows, AllFit r.integers

section fields

variable {α : Type} {read : Node → Option α} {name : String} {fields : Fields} {a default : α}

theorem Fields.exists_of_required (h : required read name fields = some a) :
    ∃ n, read n = some a := by
  rw [required, Option.bind_eq_some_iff] at h
  obtain ⟨n, -, hn⟩ := h
  exact ⟨n, hn⟩

theorem Fields.exists_of_withDefault (h : withDefault default read name fields = some a) :
    a = default ∨ ∃ n, read n = some a := by
  unfold withDefault at h
  split at h
  · exact .inl (Option.some.inj h).symm
  · exact .inr ⟨_, h⟩

theorem Node.admits_of_integer? {node : Node} {n : Int} (h : integer? node = some n) :
    Bounds.int64.admits n = true := by
  cases node with
  | scalar s => exact (Option.filter_eq_some_iff.mp h).2
  | list _ | table _ | unreadable => cases h

theorem Node.exists_of_nullable? {node : Node} {o : Option α} (h : nullable? read node = some o) :
    o = none ∨ ∃ a, o = some a ∧ read node = some a := by
  have hvalue : (read node).map some = some o →
      o = none ∨ ∃ a, o = some a ∧ read node = some a := by
    intro hmap
    obtain ⟨a, ha, hsome⟩ := Option.map_eq_some_iff.mp hmap
    exact .inr ⟨a, hsome.symm, ha⟩
  cases node with
  | scalar s =>
    cases hpresence : s.presence with
    | present => exact hvalue (by simpa [nullable?, hpresence] using h)
    | absent => exact .inl (by simpa [nullable?, hpresence, eq_comm] using h)
    | unclear => simp [nullable?, hpresence] at h
  | list _ | table _ | unreadable => exact hvalue h

theorem admits_of_required {n : Int} (h : required integer? name fields = some n) :
    Bounds.int64.admits n = true := by
  obtain ⟨node, hnode⟩ := exists_of_required h
  exact admits_of_integer? hnode

theorem admits_of_withDefault {n : Int} (h : withDefault 0 integer? name fields = some n) :
    Bounds.int64.admits n = true := by
  rcases exists_of_withDefault h with rfl | ⟨node, hnode⟩
  · decide
  · exact admits_of_integer? hnode

theorem allFit_of_withDefault {o : Option Int}
    (h : withDefault none (nullable? integer?) name fields = some o) : AllFit o.toList := by
  rcases exists_of_withDefault h with rfl | ⟨node, hnode⟩
  · exact allFit_nil
  · rcases exists_of_nullable? hnode with rfl | ⟨n, rfl, hn⟩
    · exact allFit_nil
    · exact allFit_cons.mpr ⟨admits_of_integer? hn, allFit_nil⟩

theorem forall_of_mapM {α β : Type} {f : α → Option β} {P : β → Prop}
    (h : ∀ a b, f a = some b → P b) {as : List α} {bs : List β} (hbs : as.mapM f = some bs) :
    ∀ b ∈ bs, P b := by
  induction as generalizing bs with
  | nil =>
    obtain rfl := Option.some.inj hbs
    exact fun b hb => absurd hb List.not_mem_nil
  | cons a as ih =>
    simp only [List.mapM_cons, Option.bind_eq_bind, Option.bind_eq_some_iff, Option.pure_def,
      Option.some.injEq] at hbs
    obtain ⟨b, hb, rest, hrest, rfl⟩ := hbs
    exact List.forall_mem_cons.mpr ⟨h a b hb, ih hrest⟩

/-- Every row of a table that is read has what rows have that are read one by one. -/
theorem forall_of_readRows {P : α → Prop} {rows : List α}
    (h : withDefault [] (readRows read) name fields = some rows)
    (hP : ∀ node r, read node = some r → P r) : ∀ r ∈ rows, P r := by
  rcases exists_of_withDefault h with rfl | ⟨node, hnode⟩
  · exact fun r hr => absurd hr List.not_mem_nil
  · rw [readRows, Option.bind_eq_bind, Option.bind_eq_some_iff] at hnode
    obtain ⟨items, -, hitems⟩ := hnode
    exact forall_of_mapM hP hitems

end fields

section rows

variable {form : ListRows} {node : Node}

theorem allFit_readClass {r : ClassRow} (h : readClass form node = some r) : AllFit r.integers := by
  simp only [readClass, Option.bind_eq_bind, Option.bind_eq_some_iff, Option.pure_def,
    Option.some.injEq] at h
  obtain ⟨f, -, id, hid, name, -, description, -, kind, hkind, enabled, -, rfl⟩ := h
  simp [admits_of_required hid, admits_of_withDefault hkind]

theorem allFit_readCidr {r : CidrRow} (h : readCidr form node = some r) : AllFit r.integers := by
  simp only [readCidr, Option.bind_eq_bind, Option.bind_eq_some_iff, Option.pure_def,
    Option.some.injEq] at h
  obtain ⟨f, -, id, hid, address, -, length, hlength, rfl⟩ := h
  simp [admits_of_required hid, admits_of_withDefault hlength]

theorem allFit_readPort {r : PortRow} (h : readPort form node = some r) : AllFit r.integers := by
  simp only [readPort, Option.bind_eq_bind, Option.bind_eq_some_iff, Option.pure_def,
    Option.some.injEq] at h
  obtain ⟨f, -, id, hid, number, hnumber, protocol, hprotocol, rfl⟩ := h
  simp [admits_of_required hid, admits_of_required hnumber, admits_of_withDefault hprotocol]

theorem allFit_readClassCidr {r : ClassCidrRow} (h : readClassCidr form node = some r) :
    AllFit r.integers := by
  simp only [readClassCidr, Option.bind_eq_bind, Option.bind_eq_some_iff, Option.pure_def,
    Option.some.injEq] at h
  obtain ⟨f, -, trafficClass, hclass, cidr, hcidr, group, -, rfl⟩ := h
  simp [admits_of_required hclass, admits_of_required hcidr]

theorem allFit_readClassPort {r : ClassPortRow} (h : readClassPort form node = some r) :
    AllFit r.integers := by
  simp only [readClassPort, Option.bind_eq_bind, Option.bind_eq_some_iff, Option.pure_def,
    Option.some.injEq] at h
  obtain ⟨f, -, trafficClass, hclass, port, hport, group, -, rfl⟩ := h
  simp [admits_of_required hclass, admits_of_required hport]

theorem allFit_readPolicy {r : PolicyRow} (h : readPolicy form node = some r) :
    AllFit r.integers := by
  simp only [readPolicy, Option.bind_eq_bind, Option.bind_eq_some_iff, Option.pure_def,
    Option.some.injEq] at h
  obtain ⟨f, -, id, hid, name, -, description, -, enabled, -, priority, hpriority, upload, hupload,
    download, hdownload, rfl⟩ := h
  simp [admits_of_required hid, allFit_of_withDefault hpriority, allFit_of_withDefault hupload,
    allFit_of_withDefault hdownload]

theorem allFit_readTarget {r : TargetRow} (h : readTarget form node = some r) :
    AllFit r.integers := by
  simp only [readTarget, Option.bind_eq_bind, Option.bind_eq_some_iff, Option.pure_def,
    Option.some.injEq] at h
  obtain ⟨f, -, id, hid, policy, hpolicy, trafficClass, hclass, role, -, mac, -, rfl⟩ := h
  simp [admits_of_required hid, admits_of_required hpolicy, allFit_of_withDefault hclass]

theorem allFit_readWindow {r : WindowRow} (h : readWindow form node = some r) :
    AllFit r.integers := by
  simp only [readWindow, Option.bind_eq_bind, Option.bind_eq_some_iff, Option.pure_def,
    Option.some.injEq] at h
  obtain ⟨f, -, id, hid, policy, hpolicy, weekday, hweekday, start, -, stop, -, rfl⟩ := h
  simp [admits_of_required hid, admits_of_required hpolicy, admits_of_required hweekday]

/-- The numbers of a catalog that is read fit, in whichever format it is written. -/
theorem fits_of_ofNode? {c : Catalog} (h : ofNode? form node = some c) : c.Fits := by
  simp only [ofNode?, Option.bind_eq_bind, Option.bind_eq_some_iff, Option.pure_def,
    Option.some.injEq] at h
  obtain ⟨f, -, classes, hclasses, cidrs, hcidrs, ports, hports, classCidrs, hclassCidrs,
    classPorts, hclassPorts, policies, hpolicies, targets, htargets, windows, hwindows, rfl⟩ := h
  exact {
    classes := forall_of_readRows hclasses fun _ _ => allFit_readClass
    cidrs := forall_of_readRows hcidrs fun _ _ => allFit_readCidr
    ports := forall_of_readRows hports fun _ _ => allFit_readPort
    classCidrs := forall_of_readRows hclassCidrs fun _ _ => allFit_readClassCidr
    classPorts := forall_of_readRows hclassPorts fun _ _ => allFit_readClassPort
    policies := forall_of_readRows hpolicies fun _ _ => allFit_readPolicy
    targets := forall_of_readRows htargets fun _ _ => allFit_readTarget
    windows := forall_of_readRows hwindows fun _ _ => allFit_readWindow }

end rows

end TrafficWarden
