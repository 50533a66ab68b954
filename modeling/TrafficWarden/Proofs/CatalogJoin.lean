import TrafficWarden.Proofs.RowSpelling

/-!
# Joins of catalog rows

A traffic class is joined from the rows that link it to subnets and ports, and a policy from the
rows of its windows and targets. What a join gives is said here by the rows alone, and so is when
there is something that it gives. A join gives exactly that.
-/

namespace TrafficWarden.Catalog

variable {c : Catalog}

section classes

/-- What a link says of the subnet of a class: the last row with its identity spells the subnet. -/
structure LinksSubnet (c : Catalog) (link : ClassCidrRow) (s : ClassSubnet) : Prop where
  row : ∃ row, IsLast CidrRow.id c.cidrs link.cidr row ∧ row.Spells s.subnet
  side : foldCode link.group ∈ s.side.codes

/-- What a link says of the port of a class: the last row with its identity spells the port. -/
structure LinksPort (c : Catalog) (link : ClassPortRow) (p : ClassPort) : Prop where
  row : ∃ row, IsLast PortRow.id c.ports link.port row ∧ row.Spells p.port
  side : foldCode link.group ∈ p.side.codes

structure ValidSubnetLink (c : Catalog) (link : ClassCidrRow) : Prop where
  row : ∃ row, IsLast CidrRow.id c.cidrs link.cidr row ∧ row.Valid
  side : ∃ side : Side, foldCode link.group ∈ side.codes

structure ValidPortLink (c : Catalog) (link : ClassPortRow) : Prop where
  row : ∃ row, IsLast PortRow.id c.ports link.port row ∧ row.Valid
  side : ∃ side : Side, foldCode link.group ∈ side.codes

/-- Every link of an identity leads to a subnet or a port. -/
structure ValidLinks (c : Catalog) (id : Int) : Prop where
  subnets : ∀ link ∈ c.classCidrs, link.trafficClass = id → c.ValidSubnetLink link
  ports : ∀ link ∈ c.classPorts, link.trafficClass = id → c.ValidPortLink link

/-- An identity of a traffic class whose links are all valid. -/
structure ValidClass (c : Catalog) (id : Int) : Prop where
  listed : ∃ row ∈ c.classes, row.id = id
  links : c.ValidLinks id

/-- A traffic class is what its row and its links say. -/
structure JoinsClass (c : Catalog) (row : ClassRow) (t : TrafficClass) : Prop where
  id : t.id = ⟨row.id⟩
  name : t.name = row.name
  description : t.description = row.description
  enabled : t.enabled = row.enabled
  owner : t.owner = if row.kind = 0 then .system else .user
  subnets : List.Forall₂ c.LinksSubnet (c.classCidrs.filter (·.trafficClass = row.id)) t.subnets
  ports : List.Forall₂ c.LinksPort (c.classPorts.filter (·.trafficClass = row.id)) t.ports

theorem cidr_eq_ok_iff {id : Int} {s : Subnet} :
    c.cidr id = .ok s ↔ ∃ row, IsLast CidrRow.id c.cidrs id row ∧ row.Spells s := by
  simp only [← find?_reverse_eq_some_iff, ← CidrRow.read_eq_ok_iff]
  unfold cidr
  cases c.cidrs.reverse.find? (·.id = id) <;> simp [mapError_eq_ok_iff]

theorem port_eq_ok_iff {id : Int} {p : Port} :
    c.port id = .ok p ↔ ∃ row, IsLast PortRow.id c.ports id row ∧ row.Spells p := by
  simp only [← find?_reverse_eq_some_iff, ← PortRow.read_eq_ok_iff]
  unfold port
  cases c.ports.reverse.find? (·.id = id) <;> simp [mapError_eq_ok_iff]

theorem classSubnet_eq_ok_iff {link : ClassCidrRow} {s : ClassSubnet} :
    c.classSubnet link = .ok s ↔ c.LinksSubnet link s := by
  simp only [classSubnet, bind_eq_ok_iff, cidr_eq_ok_iff, readGroup_eq_ok_iff, pure_eq_ok_iff]
  constructor
  · rintro ⟨subnet, hrow, side, hside, rfl⟩
    exact ⟨hrow, hside⟩
  · intro h
    exact ⟨_, h.row, _, h.side, rfl⟩

theorem classPort_eq_ok_iff {link : ClassPortRow} {p : ClassPort} :
    c.classPort link = .ok p ↔ c.LinksPort link p := by
  simp only [classPort, bind_eq_ok_iff, port_eq_ok_iff, readGroup_eq_ok_iff, pure_eq_ok_iff]
  constructor
  · rintro ⟨port, hrow, side, hside, rfl⟩
    exact ⟨hrow, hside⟩
  · intro h
    exact ⟨_, h.row, _, h.side, rfl⟩

/-- A row is joined to exactly the traffic class that it and its links say. -/
theorem trafficClass_eq_ok_iff {row : ClassRow} {t : TrafficClass} :
    c.trafficClass row = .ok t ↔ c.JoinsClass row t := by
  simp only [trafficClass, mapError_eq_ok_iff, bind_eq_ok_iff, mapM_eq_ok_iff,
    classSubnet_eq_ok_iff, classPort_eq_ok_iff, pure_eq_ok_iff]
  constructor
  · rintro ⟨subnets, hsubnets, ports, hports, rfl⟩
    exact ⟨rfl, rfl, rfl, rfl, rfl, hsubnets, hports⟩
  · rintro ⟨hid, hname, hdescription, henabled, howner, hsubnets, hports⟩
    refine ⟨_, hsubnets, _, hports, ?_⟩
    rw [← hid, ← hname, ← hdescription, ← henabled, ← howner]

theorem rightUnique_linksSubnet : Relator.RightUnique c.LinksSubnet := by
  intro link s s' h h'
  rw [← classSubnet_eq_ok_iff] at h h'
  exact Except.ok.inj (h.symm.trans h')

theorem rightUnique_linksPort : Relator.RightUnique c.LinksPort := by
  intro link p p' h h'
  rw [← classPort_eq_ok_iff] at h h'
  exact Except.ok.inj (h.symm.trans h')

theorem exists_linksSubnet_iff {link : ClassCidrRow} :
    (∃ s, c.LinksSubnet link s) ↔ c.ValidSubnetLink link := by
  constructor
  · rintro ⟨s, ⟨row, hlast, hspells⟩, hside⟩
    exact ⟨⟨row, hlast, CidrRow.exists_spells_iff.mp ⟨_, hspells⟩⟩, _, hside⟩
  · rintro ⟨⟨row, hlast, hvalid⟩, side, hside⟩
    obtain ⟨s, hspells⟩ := CidrRow.exists_spells_iff.mpr hvalid
    exact ⟨⟨s, side⟩, ⟨row, hlast, hspells⟩, hside⟩

theorem exists_linksPort_iff {link : ClassPortRow} :
    (∃ p, c.LinksPort link p) ↔ c.ValidPortLink link := by
  constructor
  · rintro ⟨p, ⟨row, hlast, hspells⟩, hside⟩
    exact ⟨⟨row, hlast, PortRow.exists_spells_iff.mp ⟨_, hspells⟩⟩, _, hside⟩
  · rintro ⟨⟨row, hlast, hvalid⟩, side, hside⟩
    obtain ⟨p, hspells⟩ := PortRow.exists_spells_iff.mpr hvalid
    exact ⟨⟨p, side⟩, ⟨row, hlast, hspells⟩, hside⟩

/-- Some value for every row of a table that belongs to an identity. -/
theorem exists_forall₂_filter_iff {α β : Type} {R : α → β → Prop} {key : α → Int} {rows : List α}
    {id : Int} :
    (∃ values, List.Forall₂ R (rows.filter (key · = id)) values) ↔
      ∀ row ∈ rows, key row = id → ∃ value, R row value := by
  rw [exists_forall₂_iff]
  simp only [List.mem_filter, decide_eq_true_eq, and_imp]

/-- There is a class to join from a row if the links of its identity are valid: the row itself is
never at fault. -/
theorem exists_joinsClass_iff {row : ClassRow} :
    (∃ t, c.JoinsClass row t) ↔ c.ValidLinks row.id := by
  have hlinks : c.ValidLinks row.id ↔
      (∃ subnets, List.Forall₂ c.LinksSubnet (c.classCidrs.filter (·.trafficClass = row.id))
        subnets) ∧
      ∃ ports, List.Forall₂ c.LinksPort (c.classPorts.filter (·.trafficClass = row.id)) ports := by
    simp only [exists_forall₂_filter_iff, exists_linksSubnet_iff, exists_linksPort_iff]
    exact ⟨fun h => ⟨h.subnets, h.ports⟩, fun h => ⟨h.1, h.2⟩⟩
  rw [hlinks]
  constructor
  · rintro ⟨t, h⟩
    exact ⟨⟨_, h.subnets⟩, _, h.ports⟩
  · rintro ⟨⟨subnets, hsubnets⟩, ports, hports⟩
    exact ⟨⟨⟨row.id⟩, row.name, row.description, row.enabled,
      if row.kind = 0 then .system else .user, subnets, ports⟩, rfl, rfl, rfl, rfl, rfl, hsubnets,
      hports⟩

theorem isOk_trafficClass_iff {row : ClassRow} :
    (c.trafficClass row).isOk = true ↔ c.ValidLinks row.id := by
  rw [isOk_iff_exists, ← exists_joinsClass_iff]
  simp only [trafficClass_eq_ok_iff]

/-- Nothing of a row but its identity matters for whether its class can be joined. -/
instance (id : Int) : Decidable (c.ValidLinks id) :=
  decidable_of_iff ((c.trafficClass ⟨id, "", "", 0, false⟩).isOk = true) isOk_trafficClass_iff

theorem mem_knownClasses {id : Int} : id ∈ c.knownClasses ↔ c.ValidClass id := by
  simp only [knownClasses, List.mem_map, List.mem_filter, isOk_trafficClass_iff]
  constructor
  · rintro ⟨row, ⟨hrow, hlinks⟩, rfl⟩
    exact ⟨⟨row, hrow, rfl⟩, hlinks⟩
  · rintro ⟨⟨row, hrow, rfl⟩, hlinks⟩
    exact ⟨row, ⟨hrow, hlinks⟩, rfl⟩

end classes

section policies

/-- A policy is what its row and the rows of its windows say. -/
structure JoinsPolicy (c : Catalog) (row : PolicyRow) (p : Policy) : Prop where
  fields : row.Spells p
  windows : List.Forall₂ WindowRow.Spells (c.windows.filter (·.policy = row.id)) p.windows

/-- A row of a policy is accepted if it is valid, and so are all rows of its windows and targets,
and the traffic classes that these name. -/
structure Accepts (c : Catalog) (row : PolicyRow) : Prop where
  fields : row.Valid
  windows : ∀ w ∈ c.windows, w.policy = row.id → w.Valid
  targets : ∀ t ∈ c.targets, t.policy = row.id → t.Valid
  classes : ∀ t ∈ c.targets, t.policy = row.id → ∀ id, t.trafficClass = some id → c.ValidClass id

/-- A row is joined to exactly the policy that it and its windows say, with the targets that the
rows of its targets spell. -/
theorem policy_eq_ok_iff {row : PolicyRow} {p : Policy} {ts : List Target} :
    c.policy c.knownClasses row = .ok (p, ts) ↔
      c.JoinsPolicy row p ∧
        List.Forall₂ TargetRow.Spells (c.targets.filter (·.policy = row.id)) ts ∧
        ∀ t ∈ c.targets, t.policy = row.id → ∀ id, t.trafficClass = some id → c.ValidClass id := by
  have htargets : ∀ ts, List.Forall₂ (fun t value => TargetRow.read c.knownClasses t = .ok value)
      (c.targets.filter (·.policy = row.id)) ts ↔
        List.Forall₂ TargetRow.Spells (c.targets.filter (·.policy = row.id)) ts ∧
          ∀ t ∈ c.targets, t.policy = row.id → ∀ id, t.trafficClass = some id →
            c.ValidClass id := by
    intro ts
    simp only [TargetRow.read_eq_ok_iff, mem_knownClasses, and_comm (a := TargetRow.Spells _ _),
      List.forall₂_and_left, List.mem_filter, decide_eq_true_eq, and_imp]
    rw [and_comm]
  simp only [policy, PolicyRow.read, mapError_eq_ok_iff, bind_eq_ok_iff, mapM_eq_ok_iff,
    PolicyRow.readPriority_eq_ok_iff, PolicyRow.readCap_eq_ok_iff, WindowRow.read_eq_ok_iff,
    htargets, pure_eq_ok_iff, Prod.mk.injEq]
  constructor
  · rintro ⟨priority, hpriority, upload, hupload, download, hdownload, windows, hwindows, ts',
      ⟨hts, hclasses⟩, rfl, rfl⟩
    exact ⟨⟨⟨rfl, rfl, rfl, rfl, hpriority, hupload, hdownload⟩, hwindows⟩, hts, hclasses⟩
  · rintro ⟨⟨⟨hid, hname, hdescription, henabled, hpriority, hupload, hdownload⟩, hwindows⟩, hts,
      hclasses⟩
    refine ⟨_, hpriority, _, hupload, _, hdownload, _, hwindows, _, ⟨hts, hclasses⟩, ?_, rfl⟩
    rw [← hid, ← hname, ← hdescription, ← henabled]

theorem exists_joinsPolicy_iff {row : PolicyRow} :
    (∃ p, c.JoinsPolicy row p) ↔
      row.Valid ∧ ∀ w ∈ c.windows, w.policy = row.id → w.Valid := by
  simp only [← WindowRow.exists_spells_iff, ← exists_forall₂_filter_iff]
  constructor
  · rintro ⟨p, h⟩
    exact ⟨⟨PolicyRow.exists_priority_iff.mp ⟨_, h.fields.priority⟩,
      PolicyRow.exists_capIs_iff.mp ⟨_, h.fields.upload⟩,
      PolicyRow.exists_capIs_iff.mp ⟨_, h.fields.download⟩⟩, _, h.windows⟩
  · rintro ⟨hvalid, windows, hwindows⟩
    obtain ⟨priority, hpriority⟩ := PolicyRow.exists_priority_iff.mpr hvalid.priority
    obtain ⟨upload, hupload⟩ := PolicyRow.exists_capIs_iff.mpr hvalid.upload
    obtain ⟨download, hdownload⟩ := PolicyRow.exists_capIs_iff.mpr hvalid.download
    exact ⟨⟨⟨row.id⟩, row.name, row.description, row.enabled, priority, upload, download, windows⟩,
      ⟨rfl, rfl, rfl, rfl, hpriority, hupload, hdownload⟩, hwindows⟩

/-- There is a policy to join from a row exactly if the row is accepted. -/
theorem exists_policy_eq_ok_iff {row : PolicyRow} :
    (∃ p ts, c.policy c.knownClasses row = .ok (p, ts)) ↔ c.Accepts row := by
  simp only [policy_eq_ok_iff]
  constructor
  · rintro ⟨p, ts, hjoins, hts, hclasses⟩
    obtain ⟨hfields, hwindows⟩ := exists_joinsPolicy_iff.mp ⟨p, hjoins⟩
    have htargets := exists_forall₂_filter_iff.mp ⟨ts, hts⟩
    simp only [TargetRow.exists_spells_iff] at htargets
    exact ⟨hfields, hwindows, htargets, hclasses⟩
  · intro h
    obtain ⟨p, hjoins⟩ := exists_joinsPolicy_iff.mpr ⟨h.fields, h.windows⟩
    have htargets := h.targets
    simp only [← TargetRow.exists_spells_iff, ← exists_forall₂_filter_iff] at htargets
    obtain ⟨ts, hts⟩ := htargets
    exact ⟨p, ts, hjoins, hts, h.classes⟩

theorem isOk_policy_iff {row : PolicyRow} :
    (c.policy c.knownClasses row).isOk = true ↔ c.Accepts row := by
  rw [isOk_iff_exists, ← exists_policy_eq_ok_iff, Prod.exists]

instance (row : PolicyRow) : Decidable (c.Accepts row) := decidable_of_iff _ isOk_policy_iff

/-- The rows of policies that are accepted, in their order. -/
def acceptedRows (c : Catalog) : List PolicyRow := c.policies.filter fun row => c.Accepts row

theorem mem_acceptedRows {row : PolicyRow} :
    row ∈ c.acceptedRows ↔ row ∈ c.policies ∧ c.Accepts row := by
  simp [acceptedRows]

end policies

end TrafficWarden.Catalog
