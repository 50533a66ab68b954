import TrafficWarden.Proofs.CatalogStore

/-!
# Parameter bags of a catalog

The bag of a listed policy is a join of the tables: from the rows of its targets by way of the links
of traffic classes to subnets and ports. Nothing is lost on the way and nothing is added.
-/

namespace TrafficWarden

/-- A value that a bag may hold. -/
inductive ParameterItem where
  | mac (m : MacAddress)
  | network (role : Role) (s : Subnet)
  | port (transport : Transport) (role : Role) (n : UInt16)

def ResolvedClass.ports (c : ResolvedClass) : Transport → OrderedSet UInt16
  | .tcp => c.tcpPorts
  | .udp => c.udpPorts

/-- A target gives its MAC address, and the subnets and ports of its class for its role. -/
def Target.Gives (classOf : EntityId → Except Fault TrafficClass) (t : Target) :
    ParameterItem → Prop
  | .mac m => t.mac = some m
  | .network role s => t.role = role ∧
    ∃ id k, t.trafficClass = some id ∧ classOf id = .ok k ∧ s ∈ k.resolve.subnets
  | .port transport role n => t.role = role ∧
    ∃ id k, t.trafficClass = some id ∧ classOf id = .ok k ∧ n ∈ k.resolve.ports transport

theorem BothSides.mem_get_modify_union {α : Type} [Ranked α] {b : BothSides (OrderedSet α)}
    {role side : Role} {added : OrderedSet α} {a : α} :
    a ∈ (b.modify role (·.union added)).get side ↔ a ∈ b.get side ∨ role = side ∧ a ∈ added := by
  rw [get_modify]
  by_cases h : side = role
  · simp [h]
  · simp [h, Ne.symm h]

namespace ParameterBag

variable {b bag : ParameterBag} {classOf : EntityId → Except Fault TrafficClass}

def Holds (b : ParameterBag) : ParameterItem → Prop
  | .mac m => m ∈ b.macs
  | .network role s => s ∈ b.networks.get role
  | .port transport role n => n ∈ (b.ports transport).get role

theorem not_holds_empty (i : ParameterItem) : ¬ (∅ : ParameterBag).Holds i := by
  cases i with
  | mac m => exact OrderedSet.not_mem_empty m
  | network role s => cases role <;> exact OrderedSet.not_mem_empty s
  | port transport role n => cases transport <;> cases role <;> exact OrderedSet.not_mem_empty n

theorem mem_macs_addMac {mac : Option MacAddress} {m : MacAddress} :
    m ∈ (b.addMac mac).macs ↔ m ∈ b.macs ∨ mac = some m := by
  cases mac with
  | none => simp [addMac]
  | some a => simp [addMac, or_comm, eq_comm]

@[simp] theorem networks_addMac (mac : Option MacAddress) :
    (b.addMac mac).networks = b.networks := by
  cases mac <;> rfl

@[simp] theorem ports_addMac (mac : Option MacAddress) : (b.addMac mac).ports = b.ports := by
  cases mac <;> rfl

theorem mem_networks_addClass {role side : Role} {c : ResolvedClass} {s : Subnet} :
    s ∈ (b.addClass role c).networks.get side ↔
      s ∈ b.networks.get side ∨ role = side ∧ s ∈ c.subnets :=
  BothSides.mem_get_modify_union

theorem mem_ports_addClass {transport : Transport} {role side : Role} {c : ResolvedClass}
    {n : UInt16} :
    n ∈ ((b.addClass role c).ports transport).get side ↔
      n ∈ (b.ports transport).get side ∨ role = side ∧ n ∈ c.ports transport := by
  cases transport with
  | tcp => exact BothSides.mem_get_modify_union
  | udp => exact BothSides.mem_get_modify_union

/-- A target without a class adds what it gives. -/
theorem holds_addTarget_none {t : Target} (ht : t.trafficClass = none) (i : ParameterItem) :
    (b.addTarget t none).Holds i ↔ b.Holds i ∨ t.Gives classOf i := by
  cases i with
  | mac m => exact mem_macs_addMac
  | network role s => simp [addTarget, Holds, Target.Gives, ht]
  | port transport role n => simp [addTarget, Holds, Target.Gives, ht]

/-- A target with its class adds what it gives. -/
theorem holds_addTarget_some {t : Target} {id : EntityId} {k : TrafficClass}
    (ht : t.trafficClass = some id) (hk : classOf id = .ok k) (i : ParameterItem) :
    (b.addTarget t (some k)).Holds i ↔ b.Holds i ∨ t.Gives classOf i := by
  cases i with
  | mac m => exact mem_macs_addMac
  | network role s => simp [addTarget, Holds, Target.Gives, ht, hk, mem_networks_addClass]
  | port transport role n => simp [addTarget, Holds, Target.Gives, ht, hk, mem_ports_addClass]

/-- A collection that ends well holds what it began with and what its targets give. -/
theorem holds_collect {targets : List Target} (h : collect classOf b targets = .ok bag)
    (i : ParameterItem) : bag.Holds i ↔ b.Holds i ∨ ∃ t ∈ targets, t.Gives classOf i := by
  induction targets generalizing b with
  | nil =>
    rw [← Except.ok.inj h]
    simp
  | cons t rest ih =>
    unfold collect at h
    rw [List.exists_mem_cons_iff, ← or_assoc]
    cases ht : t.trafficClass with
    | none =>
      simp only [ht] at h
      rw [ih h, holds_addTarget_none ht]
    | some id =>
      cases hk : classOf id with
      | error fault => simp [ht, hk] at h
      | ok k =>
        simp only [ht, hk] at h
        rw [ih h, holds_addTarget_some ht hk]

/-- A collection ends well if every class that a target names is there. -/
theorem exists_collect {targets : List Target}
    (h : ∀ t ∈ targets, ∀ id, t.trafficClass = some id → ∃ k, classOf id = .ok k)
    (b : ParameterBag) : ∃ bag, collect classOf b targets = .ok bag := by
  induction targets generalizing b with
  | nil => exact ⟨b, rfl⟩
  | cons t rest ih =>
    rw [List.forall_mem_cons] at h
    unfold collect
    cases ht : t.trafficClass with
    | none => exact ih h.2 _
    | some id =>
      obtain ⟨k, hk⟩ := h.1 id ht
      simp only [hk]
      exact ih h.2 _

end ParameterBag

/-- The protocol numbers of ports that count for a transport. -/
def Transport.protocols : Transport → List Int
  | .tcp => [0, 6]
  | .udp => [0, 17]

theorem TrafficClass.mem_ports_resolve {k : TrafficClass} {transport : Transport} {n : UInt16} :
    n ∈ k.resolve.ports transport ↔
      ∃ a ∈ k.ports, a.port.protocol.number ∈ transport.protocols ∧ a.port.number = n := by
  have htcp : ∀ p : Protocol, p.coversTcp = true ↔ p.number ∈ Transport.tcp.protocols := by
    intro p
    cases p <;> decide
  have hudp : ∀ p : Protocol, p.coversUdp = true ↔ p.number ∈ Transport.udp.protocols := by
    intro p
    cases p <;> decide
  cases transport with
  | tcp => simp only [ResolvedClass.ports, mem_tcpPorts_resolve, htcp]
  | udp => simp only [ResolvedClass.ports, mem_udpPorts_resolve, hudp]

/-- The protocol of a valid row counts for some transport. -/
theorem PortRow.Valid.exists_mem_protocols {row : PortRow} (h : row.Valid) :
    ∃ transport : Transport, row.protocol ∈ transport.protocols := by
  rcases h.protocol with hany | htcp | hudp
  · exact ⟨.tcp, by simp [hany, Transport.protocols]⟩
  · exact ⟨.tcp, by simp [htcp, Transport.protocols]⟩
  · exact ⟨.udp, by simp [hudp, Transport.protocols]⟩

theorem Role.eq_of_mem_codes {raw : String} {role other : Role}
    (h : Catalog.foldCode raw ∈ role.codes) (h' : Catalog.foldCode raw ∈ other.codes) :
    role = other := by
  rw [← readRole_eq_ok_iff] at h h'
  exact Except.ok.inj (h.symm.trans h')

namespace Catalog

variable {c : Catalog}

/-- A target of a policy names a class for a role. -/
def NamesClass (c : Catalog) (policy : EntityId) (role : Role) (id : Int) : Prop :=
  ∃ t ∈ c.targets, t.policy = policy.value ∧ foldCode t.role ∈ role.codes ∧
    t.trafficClass = some id

/-- A bag holds what the tables say of a policy, and no row that is linked to it is left out. -/
structure JoinsBag (c : Catalog) (policy : EntityId) (b : ParameterBag) : Prop where
  macs : ∀ m, m ∈ b.macs ↔ ∃ t ∈ c.targets, t.policy = policy.value ∧
    ∃ raw, t.writtenMac = some raw ∧ MacAddress.normalized raw = m.text
  networks : ∀ role s, s ∈ b.networks.get role ↔
    ∃ link ∈ c.classCidrs, c.NamesClass policy role link.trafficClass ∧
      ∃ row, IsLast CidrRow.id c.cidrs link.cidr row ∧ row.Spells s
  ports : ∀ transport role n, n ∈ (b.ports transport).get role ↔
    ∃ link ∈ c.classPorts, c.NamesClass policy role link.trafficClass ∧
      ∃ row, IsLast PortRow.id c.ports link.port row ∧
        row.number = n.toNat ∧ row.protocol ∈ transport.protocols
  everyMac : ∀ t ∈ c.targets, t.policy = policy.value → ∀ raw, t.writtenMac = some raw →
    ∃ m ∈ b.macs, MacAddress.normalized raw = m.text
  everyNetwork : ∀ link ∈ c.classCidrs, ∀ role, c.NamesClass policy role link.trafficClass →
    ∃ row, IsLast CidrRow.id c.cidrs link.cidr row ∧ ∃ s ∈ b.networks.get role, row.Spells s
  everyPort : ∀ link ∈ c.classPorts, ∀ role, c.NamesClass policy role link.trafficClass →
    ∃ row, IsLast PortRow.id c.ports link.port row ∧
      ∃ transport, ∃ n ∈ (b.ports transport).get role, row.number = n.toNat

section classes

variable {row : ClassRow} {k : TrafficClass}

theorem JoinsClass.mem_subnets (h : c.JoinsClass row k) {s : Subnet} :
    s ∈ k.resolve.subnets ↔ ∃ link ∈ c.classCidrs, link.trafficClass = row.id ∧
      ∃ r, IsLast CidrRow.id c.cidrs link.cidr r ∧ r.Spells s := by
  simp only [TrafficClass.mem_subnets_resolve, mem_iff_of_forall₂ rightUnique_linksSubnet h.subnets,
    List.mem_filter, decide_eq_true_eq]
  constructor
  · rintro ⟨a, ⟨link, ⟨hlink, hid⟩, hrow, -⟩, rfl⟩
    exact ⟨link, hlink, hid, hrow⟩
  · rintro ⟨link, hlink, hid, hrow⟩
    obtain ⟨side, hside⟩ := ((exists_joinsClass_iff.mp ⟨k, h⟩).subnets link hlink hid).side
    exact ⟨⟨s, side⟩, ⟨link, ⟨hlink, hid⟩, hrow, hside⟩, rfl⟩

theorem JoinsClass.mem_ports (h : c.JoinsClass row k) {transport : Transport} {n : UInt16} :
    n ∈ k.resolve.ports transport ↔ ∃ link ∈ c.classPorts, link.trafficClass = row.id ∧
      ∃ r, IsLast PortRow.id c.ports link.port r ∧
        r.number = n.toNat ∧ r.protocol ∈ transport.protocols := by
  simp only [TrafficClass.mem_ports_resolve, mem_iff_of_forall₂ rightUnique_linksPort h.ports,
    List.mem_filter, decide_eq_true_eq]
  constructor
  · rintro ⟨a, ⟨link, ⟨hlink, hid⟩, ⟨r, hlast, hspells⟩, -⟩, hcovers, rfl⟩
    exact ⟨link, hlink, hid, r, hlast, hspells.number, hspells.protocol ▸ hcovers⟩
  · rintro ⟨link, hlink, hid, r, hlast, hnumber, hcovers⟩
    have hvalid := (exists_joinsClass_iff.mp ⟨k, h⟩).ports link hlink hid
    obtain ⟨side, hside⟩ := hvalid.side
    obtain ⟨r', hlast', hr'⟩ := hvalid.row
    rw [← hlast.unique hlast'] at hr'
    obtain ⟨protocol, hprotocol⟩ := PortRow.exists_protocol_iff.mpr hr'.protocol
    exact ⟨⟨⟨n, protocol⟩, side⟩, ⟨link, ⟨hlink, hid⟩, ⟨r, hlast, hnumber, hprotocol⟩, hside⟩,
      hprotocol ▸ hcovers, rfl⟩

end classes

section bag

variable {id : EntityId} {b : ParameterBag}

/-- A row of a target of a listed policy spells a target. -/
theorem exists_spells_of_listed (hlisted : ∃ p ∈ c.toStore.1.policies, p.id = id) {r : TargetRow}
    (hr : r ∈ c.targets) (hpolicy : r.policy = id.value) :
    ∃ t ∈ c.toStore.1.targetsOf id, r.Spells t := by
  obtain ⟨row, -, hid, haccepts⟩ := exists_listed_iff.mp hlisted
  obtain ⟨t, ht⟩ := TargetRow.exists_spells_iff.mpr
    (haccepts.targets r hr (hpolicy.trans hid.symm))
  exact ⟨t, (mem_targetsOf_toStore hlisted).mpr ⟨r, hr, hpolicy, ht⟩, ht⟩

/-- A class that a listed policy names is valid. -/
theorem validClass_of_namesClass (hlisted : ∃ p ∈ c.toStore.1.policies, p.id = id) {role : Role}
    {n : Int} (hnames : c.NamesClass id role n) : c.ValidClass n := by
  obtain ⟨row, -, hid, haccepts⟩ := exists_listed_iff.mp hlisted
  obtain ⟨r, hr, hpolicy, -, hn⟩ := hnames
  exact haccepts.classes r hr (hpolicy.trans hid.symm) n hn

/-- What the classes of the targets with a role give, if each class gives it by its links. -/
theorem exists_target_iff (hlisted : ∃ p ∈ c.toStore.1.policies, p.id = id) {role : Role}
    {Q : TrafficClass → Prop} {γ : Type} {links : List γ} {key : γ → Int} {L : γ → Prop}
    (hQ : ∀ {row k}, c.JoinsClass row k → (Q k ↔ ∃ link ∈ links, key link = row.id ∧ L link)) :
    (∃ t ∈ c.toStore.1.targetsOf id, t.role = role ∧ ∃ kid k, t.trafficClass = some kid ∧
      c.toStore.1.source.trafficClass kid = .ok k ∧ Q k) ↔
      ∃ link ∈ links, c.NamesClass id role (key link) ∧ L link := by
  simp only [Store.source_trafficClass_eq_ok_iff, class?_toStore]
  constructor
  · rintro ⟨t, ht, rfl, kid, k, hkid, ⟨row, hlast, hjoins⟩, hk⟩
    obtain ⟨r, hr, hpolicy, hspells⟩ := (mem_targetsOf_toStore hlisted).mp ht
    obtain ⟨link, hlink, hid, hL⟩ := (hQ hjoins).mp hk
    rw [hspells.trafficClass, Option.map_eq_some_iff] at hkid
    obtain ⟨n, hn, rfl⟩ := hkid
    refine ⟨link, hlink, ⟨r, hr, hpolicy, hspells.role, ?_⟩, hL⟩
    rw [hn, hid, hlast.mem.2]
  · rintro ⟨link, hlink, hnames, hL⟩
    have hvalid : c.ValidClass (EntityId.mk (key link)).value :=
      validClass_of_namesClass hlisted hnames
    rw [← exists_class?_toStore_iff] at hvalid
    simp only [class?_toStore] at hvalid
    obtain ⟨k, row, hlast, hjoins⟩ := hvalid
    obtain ⟨r, hr, hpolicy, hrole, hn⟩ := hnames
    obtain ⟨t, ht, hspells⟩ := exists_spells_of_listed hlisted hr hpolicy
    refine ⟨t, ht, Role.eq_of_mem_codes hspells.role hrole, ⟨key link⟩, k, ?_, ⟨row, hlast, hjoins⟩,
      (hQ hjoins).mpr ⟨link, hlink, hlast.mem.2.symm, hL⟩⟩
    rw [hspells.trafficClass, hn, Option.map_some]

/-- The MAC addresses of the targets of a listed policy are those that their rows have. -/
theorem exists_mac_iff (hlisted : ∃ p ∈ c.toStore.1.policies, p.id = id) {m : MacAddress} :
    (∃ t ∈ c.toStore.1.targetsOf id, t.mac = some m) ↔
      ∃ r ∈ c.targets, r.policy = id.value ∧
        ∃ raw, r.writtenMac = some raw ∧ MacAddress.normalized raw = m.text := by
  constructor
  · rintro ⟨t, ht, hm⟩
    obtain ⟨r, hr, hpolicy, hspells⟩ := (mem_targetsOf_toStore hlisted).mp ht
    have hmac := hspells.mac
    rw [hm, Option.map_some, eq_comm, Option.map_eq_some_iff] at hmac
    exact ⟨r, hr, hpolicy, hmac⟩
  · rintro ⟨r, hr, hpolicy, raw, hraw, hnormal⟩
    obtain ⟨t, ht, hspells⟩ := exists_spells_of_listed hlisted hr hpolicy
    have hmac := hspells.mac
    rw [hraw, Option.map_some, hnormal, Option.map_eq_some_iff] at hmac
    obtain ⟨m', hm', htext⟩ := hmac
    exact ⟨t, ht, by rw [hm', MacAddress.text_injective htext]⟩

theorem exists_bag (hlisted : ∃ p ∈ c.toStore.1.policies, p.id = id) :
    ∃ b, c.toStore.1.source.bag id = .ok b :=
  ParameterBag.exists_collect
    (fun _ ht _ hk => exists_trafficClass_of_mem_targetsOf hlisted ht hk) ∅

/-- The bag of a listed policy is there, and is the join of the rows that are linked to it. -/
theorem bag_joins (c : Catalog) (id : EntityId) (hlisted : ∃ p ∈ c.toStore.1.policies, p.id = id) :
    ∃ b, c.toStore.1.source.bag id = .ok b ∧ c.JoinsBag id b := by
  obtain ⟨b, hb⟩ := exists_bag hlisted
  have hholds : ∀ i, b.Holds i ↔ ∃ t ∈ c.toStore.1.targetsOf id,
      t.Gives c.toStore.1.source.trafficClass i := by
    intro i
    rw [ParameterBag.holds_collect hb, or_iff_right (ParameterBag.not_holds_empty i)]
  have hmacs : ∀ m, m ∈ b.macs ↔ ∃ t ∈ c.targets, t.policy = id.value ∧
      ∃ raw, t.writtenMac = some raw ∧ MacAddress.normalized raw = m.text := fun m =>
    (hholds (.mac m)).trans (exists_mac_iff hlisted)
  have hnetworks : ∀ role s, s ∈ b.networks.get role ↔
      ∃ link ∈ c.classCidrs, c.NamesClass id role link.trafficClass ∧
        ∃ row, IsLast CidrRow.id c.cidrs link.cidr row ∧ row.Spells s := fun role s =>
    (hholds (.network role s)).trans (exists_target_iff hlisted fun h => h.mem_subnets)
  have hports : ∀ transport role n, n ∈ (b.ports transport).get role ↔
      ∃ link ∈ c.classPorts, c.NamesClass id role link.trafficClass ∧
        ∃ row, IsLast PortRow.id c.ports link.port row ∧
          row.number = n.toNat ∧ row.protocol ∈ transport.protocols := fun transport role n =>
    (hholds (.port transport role n)).trans (exists_target_iff hlisted fun h => h.mem_ports)
  refine ⟨b, hb, hmacs, hnetworks, hports, ?_, ?_, ?_⟩
  · intro r hr hpolicy raw hraw
    obtain ⟨row, -, hid, haccepts⟩ := exists_listed_iff.mp hlisted
    obtain ⟨m, hm⟩ := (haccepts.targets r hr (hpolicy.trans hid.symm)).mac raw hraw
    exact ⟨m, (hmacs m).mpr ⟨r, hr, hpolicy, raw, hraw, hm⟩, hm⟩
  · intro link hlink role hnames
    have hlinks := (validClass_of_namesClass hlisted hnames).links
    obtain ⟨row, hlast, hvalid⟩ := (hlinks.subnets link hlink rfl).row
    obtain ⟨s, hs⟩ := CidrRow.exists_spells_iff.mpr hvalid
    exact ⟨row, hlast, s, (hnetworks role s).mpr ⟨link, hlink, hnames, row, hlast, hs⟩, hs⟩
  · intro link hlink role hnames
    have hlinks := (validClass_of_namesClass hlisted hnames).links
    obtain ⟨row, hlast, hvalid⟩ := (hlinks.ports link hlink rfl).row
    obtain ⟨p, hp⟩ := PortRow.exists_spells_iff.mpr hvalid
    obtain ⟨transport, hcovers⟩ := hvalid.exists_mem_protocols
    exact ⟨row, hlast, transport, p.number,
      (hports transport role p.number).mpr ⟨link, hlink, hnames, row, hlast, hp.number, hcovers⟩,
      hp.number⟩

/-- A policy whose class is disabled, with a subnet that is given twice. The last row of it
counts. -/
theorem bag_joins_of_guests :
    let c : Catalog := {
      classes := [⟨1, "web", "", 1, false⟩]
      cidrs := [⟨1, "10.0.0.0", 40⟩, ⟨1, " 10.0.0.0 ", 8⟩]
      ports := [⟨1, 80, 0⟩]
      classCidrs := [⟨1, 1, "I"⟩]
      classPorts := [⟨1, 1, "outside"⟩]
      policies := [⟨7, "guests", none, true, none, none, none⟩]
      targets := [⟨1, 7, some 1, "Source", some "AA-BB-CC-DD-EE-0F"⟩, ⟨2, 8, none, "d", none⟩]
      windows := [] }
    (∃ p ∈ c.toStore.1.policies, p.id = ⟨7⟩) ∧
      ∃ b, c.toStore.1.source.bag ⟨7⟩ = .ok b ∧ c.JoinsBag ⟨7⟩ b := by
  intro c
  have hlisted : ∃ p ∈ c.toStore.1.policies, p.id = ⟨7⟩ := by decide +kernel
  exact ⟨hlisted, bag_joins c ⟨7⟩ hlisted⟩

end bag

end Catalog

end TrafficWarden
