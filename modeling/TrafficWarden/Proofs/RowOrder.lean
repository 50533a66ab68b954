import Mathlib.Data.List.Forall2
import TrafficWarden.Proofs.ActiveViews

/-!
# The order of rows

Only the order of the policies counts. Every other table may be read in any order: the same policies
are active with the same parameters, and the scripts are the same to the last character.
-/

namespace TrafficWarden

open Calendar

section lists

theorem isLast_iff_of_nodup {α : Type} {key : α → Int} {rows : List α} {id : Int} {row : α}
    (h : (rows.map key).Nodup) : IsLast key rows id row ↔ row ∈ rows ∧ key row = id := by
  constructor
  · exact IsLast.mem
  · rintro ⟨hrow, rfl⟩
    have hlast : ∃ last, IsLast key rows (key row) last := exists_isLast hrow
    obtain ⟨last, hlast⟩ := hlast
    rwa [List.inj_on_of_nodup_map h hlast.mem.1 hrow hlast.mem.2] at hlast

theorem isLast_iff_of_perm {α : Type} {key : α → Int} {rows rows' : List α} {id : Int} {row : α}
    (hrows : rows.Perm rows') (h : (rows.map key).Nodup) :
    IsLast key rows id row ↔ IsLast key rows' id row := by
  have h' : (rows'.map key).Nodup := (hrows.map key).nodup_iff.mp h
  rw [isLast_iff_of_nodup h, isLast_iff_of_nodup h', hrows.mem_iff]

theorem OrderedSet.ext_mem {α : Type} [Ranked α] {s t : OrderedSet α} (h : ∀ a, a ∈ s ↔ a ∈ t) :
    s = t := by
  obtain ⟨items, hitems⟩ := s
  obtain ⟨others, hothers⟩ := t
  have hnodup : ∀ {l : List α}, l.Pairwise (Ranked.rank · < Ranked.rank ·) → l.Nodup := fun hl =>
    hl.imp fun hlt heq => absurd hlt (by rw [heq]; exact Int.lt_irrefl _)
  have hperm : items.Perm others :=
    (List.perm_ext_iff_of_nodup (hnodup hitems) (hnodup hothers)).mpr h
  have hsame : items = others := hperm.eq_of_pairwise
    (fun a b _ _ hab hba => absurd hba (Int.not_lt.mpr (Int.le_of_lt hab))) hitems hothers
  subst hsame
  rfl

end lists

namespace ParameterBag

theorem ext_holds {b b' : ParameterBag} (h : ∀ i, b.Holds i ↔ b'.Holds i) : b = b' := by
  obtain ⟨macs, ⟨source, destination⟩, ⟨tcpSource, tcpDestination⟩, udpSource, udpDestination⟩ := b
  have hmacs : macs = b'.macs := OrderedSet.ext_mem fun m => h (.mac m)
  have hsource : source = b'.networks.source :=
    OrderedSet.ext_mem fun s => h (.network .source s)
  have hdestination : destination = b'.networks.destination :=
    OrderedSet.ext_mem fun s => h (.network .destination s)
  have htcpSource : tcpSource = b'.tcpPorts.source :=
    OrderedSet.ext_mem fun n => h (.port .tcp .source n)
  have htcpDestination : tcpDestination = b'.tcpPorts.destination :=
    OrderedSet.ext_mem fun n => h (.port .tcp .destination n)
  have hudpSource : udpSource = b'.udpPorts.source :=
    OrderedSet.ext_mem fun n => h (.port .udp .source n)
  have hudpDestination : udpDestination = b'.udpPorts.destination :=
    OrderedSet.ext_mem fun n => h (.port .udp .destination n)
  rw [hmacs, hsource, hdestination, htcpSource, htcpDestination, hudpSource, hudpDestination]

end ParameterBag

section policies

variable {p q : Policy}

/-- A policy without its windows. -/
def Policy.timeless (p : Policy) : Policy := { p with windows := [] }

/-- Two policies differ at most in the order and the repetition of their windows. -/
structure Policy.SameUpToOrder (p q : Policy) : Prop where
  timeless : p.timeless = q.timeless
  windows : ∀ w, w ∈ p.windows ↔ w ∈ q.windows

namespace Policy.SameUpToOrder

theorem id (h : p.SameUpToOrder q) : p.id = q.id := by
  have hid : p.timeless.id = q.timeless.id := by rw [h.timeless]
  exact hid

theorem isEmpty_windows (h : p.SameUpToOrder q) : p.windows.isEmpty = q.windows.isEmpty := by
  rw [Bool.eq_iff_iff, List.isEmpty_iff, List.isEmpty_iff, List.eq_nil_iff_forall_not_mem,
    List.eq_nil_iff_forall_not_mem]
  exact forall_congr' fun w => not_congr (h.windows w)

theorem hasWindows (h : p.SameUpToOrder q) : p.hasWindows = q.hasWindows := by
  rw [Policy.hasWindows, Policy.hasWindows, h.isEmpty_windows]

theorem isActive (h : p.SameUpToOrder q) (moment : Timestamp) :
    p.isActive moment = q.isActive moment := by
  have henabled : p.timeless.enabled = q.timeless.enabled := by rw [h.timeless]
  have henabled : p.enabled = q.enabled := henabled
  have hany : p.windows.any (·.contains moment) = q.windows.any (·.contains moment) := by
    rw [Bool.eq_iff_iff, List.any_eq_true, List.any_eq_true]
    simp only [h.windows]
  rw [Policy.isActive, Policy.isActive, henabled, h.isEmpty_windows, hany]

end Policy.SameUpToOrder

theorem PolicyRow.timeless_eq_of_spells {row : PolicyRow} (hp : row.Spells p) (hq : row.Spells q) :
    p.timeless = q.timeless := by
  have hpriority : p.priority = q.priority := Except.ok.inj
    ((readPriority_eq_ok_iff.mpr hp.priority).symm.trans (readPriority_eq_ok_iff.mpr hq.priority))
  have hread : ∀ {raw cap}, readCap "upload" raw = .ok cap ↔ CapIs raw cap :=
    readCap_eq_ok_iff
  have hcap : ∀ {raw cap cap'}, CapIs raw cap → CapIs raw cap' → cap = cap' := fun h h' =>
    Except.ok.inj ((hread.mpr h).symm.trans (hread.mpr h'))
  unfold Policy.timeless
  rw [hp.id, hq.id, hp.name, hq.name, hp.description, hq.description, hp.enabled, hq.enabled,
    hpriority, hcap hp.upload hq.upload, hcap hp.download hq.download]

theorem WindowRow.rightUnique_spells : Relator.RightUnique Spells := by
  intro row w w' h h'
  rw [← read_eq_ok_iff] at h h'
  exact Except.ok.inj (h.symm.trans h')

end policies

section plans

/-- Nothing in a plan depends on the windows of its policies. -/
def CompiledPolicy.timeless (c : CompiledPolicy) : CompiledPolicy :=
  { c with policy := c.policy.timeless }

namespace PolicySource

variable {s t : PolicySource}

theorem compilePolicies_congr {ps : List Policy} (h : ∀ p ∈ ps, s.bag p.id = t.bag p.id) :
    s.compilePolicies ps = t.compilePolicies ps := by
  induction ps with
  | nil => rfl
  | cons p ps ih =>
    rw [List.forall_mem_cons] at h
    unfold compilePolicies
    rw [h.1, ih h.2]

theorem compilePolicies_map_timeless (s : PolicySource) (ps : List Policy) :
    s.compilePolicies (ps.map Policy.timeless) =
      ((s.compilePolicies ps).1.map (List.map CompiledPolicy.timeless),
        (s.compilePolicies ps).2) := by
  induction ps with
  | nil => rfl
  | cons p ps ih =>
    have hid : p.timeless.id = p.id := rfl
    have hname : p.timeless.name = p.name := rfl
    rw [List.map_cons, compilePolicies, compilePolicies, ih, hid, hname]
    obtain ⟨compiled, warnings⟩ := s.compilePolicies ps
    cases s.bag p.id with
    | ok bag => cases compiled <;> rfl
    | error fault => cases h : fault.isLocal <;> simp [h, Except.map]

end PolicySource

namespace Script

theorem policySections_map_timeless (place : Nat) (cs : List CompiledPolicy) :
    policySections place (cs.map CompiledPolicy.timeless) = policySections place cs := by
  induction cs generalizing place with
  | nil => rfl
  | cons c cs ih =>
    have hsection : policySection place c.timeless = policySection place c := rfl
    rw [List.map_cons, policySections, policySections, hsection, ih]

end Script

theorem Plan.script_map_timeless (interfaces : Interfaces) (moment : Timestamp)
    (cs : List CompiledPolicy) :
    (Plan.mk interfaces moment (cs.map CompiledPolicy.timeless)).script =
      (Plan.mk interfaces moment cs).script := by
  have hcount : (Plan.mk interfaces moment (cs.map CompiledPolicy.timeless)).highPriorityCount =
      (Plan.mk interfaces moment cs).highPriorityCount := by
    simp only [highPriorityCount, List.filter_map, List.length_map]
    rfl
  simp only [script, Script.ofPlan, Script.header, hcount, Script.policySections_map_timeless]

/-- The script of a store, from the active policies without their windows. -/
theorem Store.preview_source (s : Store) (interfaces : Interfaces) (moment : Timestamp) :
    s.source.preview interfaces moment =
      let compiled := s.source.compilePolicies ((s.activeAt moment).map Policy.timeless)
      (compiled.1.map fun cs => (Plan.mk interfaces moment cs).script, compiled.2) := by
  simp only [PolicySource.compilePolicies_map_timeless, PolicySource.preview, PolicySource.plan,
    Store.active_source]
  cases (s.source.compilePolicies (s.activeAt moment)).1 with
  | error fault => rfl
  | ok cs => simp [Except.map, Plan.script_map_timeless]

end plans

namespace Catalog

/-- Two catalogs list the same policies in the same order, and have the same rows in any order in
the other tables. -/
structure Reorders (c d : Catalog) : Prop where
  policies : c.policies = d.policies
  classes : c.classes.Perm d.classes
  cidrs : c.cidrs.Perm d.cidrs
  ports : c.ports.Perm d.ports
  classCidrs : c.classCidrs.Perm d.classCidrs
  classPorts : c.classPorts.Perm d.classPorts
  targets : c.targets.Perm d.targets
  windows : c.windows.Perm d.windows

/-- No identity is given to two traffic classes, two subnets or two ports. -/
structure UniqueIds (c : Catalog) : Prop where
  classes : (c.classes.map (·.id)).Nodup
  cidrs : (c.cidrs.map (·.id)).Nodup
  ports : (c.ports.map (·.id)).Nodup

/-- What the tables say that the bag of a policy holds. -/
def Supplies (c : Catalog) (policy : EntityId) : ParameterItem → Prop
  | .mac m => ∃ t ∈ c.targets, t.policy = policy.value ∧
    ∃ raw, t.writtenMac = some raw ∧ MacAddress.normalized raw = m.text
  | .network role s => ∃ link ∈ c.classCidrs, c.NamesClass policy role link.trafficClass ∧
    ∃ row, IsLast CidrRow.id c.cidrs link.cidr row ∧ row.Spells s
  | .port transport role n => ∃ link ∈ c.classPorts, c.NamesClass policy role link.trafficClass ∧
    ∃ row, IsLast PortRow.id c.ports link.port row ∧
      row.number = n.toNat ∧ row.protocol ∈ transport.protocols

variable {c d : Catalog}

theorem holds_bag_iff {id : EntityId} (hlisted : ∃ p ∈ c.toStore.1.policies, p.id = id)
    {b : ParameterBag} (hb : c.toStore.1.source.bag id = .ok b) (i : ParameterItem) :
    b.Holds i ↔ c.Supplies id i := by
  rw [ParameterBag.holds_collect hb, or_iff_right (ParameterBag.not_holds_empty i)]
  cases i with
  | mac m => exact exists_mac_iff hlisted
  | network role s => exact exists_target_iff hlisted fun h => h.mem_subnets
  | port transport role n => exact exists_target_iff hlisted fun h => h.mem_ports

namespace Reorders

theorem symm (h : Reorders c d) : Reorders d c :=
  ⟨h.policies.symm, h.classes.symm, h.cidrs.symm, h.ports.symm, h.classCidrs.symm,
    h.classPorts.symm, h.targets.symm, h.windows.symm⟩

theorem uniqueIds (h : Reorders c d) (hids : c.UniqueIds) : d.UniqueIds :=
  ⟨(h.classes.map _).nodup_iff.mp hids.classes, (h.cidrs.map _).nodup_iff.mp hids.cidrs,
    (h.ports.map _).nodup_iff.mp hids.ports⟩

section acceptance

theorem validLinks (h : Reorders c d) (hids : c.UniqueIds) {id : Int} (hlinks : c.ValidLinks id) :
    d.ValidLinks id where
  subnets link hlink hid := by
    obtain ⟨⟨row, hlast, hvalid⟩, hside⟩ := hlinks.subnets link (h.classCidrs.mem_iff.mpr hlink) hid
    exact ⟨⟨row, (isLast_iff_of_perm h.cidrs hids.cidrs).mp hlast, hvalid⟩, hside⟩
  ports link hlink hid := by
    obtain ⟨⟨row, hlast, hvalid⟩, hside⟩ := hlinks.ports link (h.classPorts.mem_iff.mpr hlink) hid
    exact ⟨⟨row, (isLast_iff_of_perm h.ports hids.ports).mp hlast, hvalid⟩, hside⟩

theorem validClass (h : Reorders c d) (hids : c.UniqueIds) {id : Int} (hclass : c.ValidClass id) :
    d.ValidClass id := by
  obtain ⟨row, hrow, hid⟩ := hclass.listed
  exact ⟨⟨row, h.classes.mem_iff.mp hrow, hid⟩, h.validLinks hids hclass.links⟩

theorem accepts (h : Reorders c d) (hids : c.UniqueIds) {row : PolicyRow} (hrow : c.Accepts row) :
    d.Accepts row where
  fields := hrow.fields
  windows w hw := hrow.windows w (h.windows.mem_iff.mpr hw)
  targets t ht := hrow.targets t (h.targets.mem_iff.mpr ht)
  classes t ht howner id hid :=
    h.validClass hids (hrow.classes t (h.targets.mem_iff.mpr ht) howner id hid)

theorem acceptedRows (h : Reorders c d) (hids : c.UniqueIds) : c.acceptedRows = d.acceptedRows := by
  rw [Catalog.acceptedRows, Catalog.acceptedRows, h.policies]
  refine List.filter_congr fun row _ => ?_
  rw [decide_eq_decide]
  exact ⟨h.accepts hids, h.symm.accepts (h.uniqueIds hids)⟩

end acceptance

section policies

theorem sameUpToOrder (h : Reorders c d) {row : PolicyRow} {p q : Policy} (hp : c.JoinsPolicy row p)
    (hq : d.JoinsPolicy row q) : p.SameUpToOrder q where
  timeless := PolicyRow.timeless_eq_of_spells hp.fields hq.fields
  windows w := by
    rw [mem_iff_of_forall₂ WindowRow.rightUnique_spells hp.windows,
      mem_iff_of_forall₂ WindowRow.rightUnique_spells hq.windows]
    simp only [List.mem_filter, h.windows.mem_iff]

theorem forall₂_policies (h : Reorders c d) (hids : c.UniqueIds) :
    List.Forall₂ Policy.SameUpToOrder c.toStore.1.policies d.toStore.1.policies := by
  have hsame : c.toStore.1.policies.map (·.id) = d.toStore.1.policies.map (·.id) := by
    rw [map_id_policies_toStore, map_id_policies_toStore, h.acceptedRows hids]
  rw [← List.forall₂_eq_eq_eq, List.forall₂_map_left_iff, List.forall₂_map_right_iff] at hsame
  refine List.forall₂_iff_zip.mpr ⟨hsame.length_eq, fun {p q} hpq => ?_⟩
  have hid : p.id = q.id := List.forall₂_zip hsame hpq
  obtain ⟨hp, hq⟩ := List.of_mem_zip hpq
  obtain ⟨row, hlast, hjoins⟩ := mem_policies_toStore.mp hp
  obtain ⟨row', hlast', hjoins'⟩ := mem_policies_toStore.mp hq
  -- both policies are joined from the same row, since the tables of policies are the same
  rw [h.acceptedRows hids, hid] at hlast
  rw [hlast.unique hlast'] at hjoins
  exact h.sameUpToOrder hjoins hjoins'

end policies

section bags

variable {id : EntityId} {b b' : ParameterBag}

theorem namesClass (h : Reorders c d) {role : Role} {k : Int} (hnames : c.NamesClass id role k) :
    d.NamesClass id role k := by
  obtain ⟨t, ht, hnames⟩ := hnames
  exact ⟨t, h.targets.mem_iff.mp ht, hnames⟩

theorem supplies (h : Reorders c d) (hids : c.UniqueIds) {i : ParameterItem}
    (hi : c.Supplies id i) : d.Supplies id i := by
  cases i with
  | mac m =>
    obtain ⟨t, ht, hmac⟩ := hi
    exact ⟨t, h.targets.mem_iff.mp ht, hmac⟩
  | network role s =>
    obtain ⟨link, hlink, hnames, row, hlast, hspells⟩ := hi
    exact ⟨link, h.classCidrs.mem_iff.mp hlink, h.namesClass hnames, row,
      (isLast_iff_of_perm h.cidrs hids.cidrs).mp hlast, hspells⟩
  | port transport role n =>
    obtain ⟨link, hlink, hnames, row, hlast, hspells⟩ := hi
    exact ⟨link, h.classPorts.mem_iff.mp hlink, h.namesClass hnames, row,
      (isLast_iff_of_perm h.ports hids.ports).mp hlast, hspells⟩

theorem bag_eq (h : Reorders c d) (hids : c.UniqueIds)
    (hlisted : ∃ p ∈ c.toStore.1.policies, p.id = id) :
    c.toStore.1.source.bag id = d.toStore.1.source.bag id := by
  have hlisted' : ∃ p ∈ d.toStore.1.policies, p.id = id := by
    rw [exists_listed_iff] at hlisted ⊢
    obtain ⟨row, hrow, hid, haccepts⟩ := hlisted
    exact ⟨row, h.policies ▸ hrow, hid, h.accepts hids haccepts⟩
  obtain ⟨b, hb⟩ := exists_bag hlisted
  obtain ⟨b', hb'⟩ := exists_bag hlisted'
  have hsame : b = b' := ParameterBag.ext_holds fun i => by
    rw [holds_bag_iff hlisted hb, holds_bag_iff hlisted' hb']
    exact ⟨h.supplies hids, h.symm.supplies (h.uniqueIds hids)⟩
  rw [hb, hb', hsame]

end bags

section views

theorem forall₂_activeAt (h : Reorders c d) (hids : c.UniqueIds) (moment : Timestamp) :
    List.Forall₂ Policy.SameUpToOrder (c.toStore.1.activeAt moment)
      (d.toStore.1.activeAt moment) := by
  refine List.rel_filter (fun p q hpq => iff_of_eq ?_) (h.forall₂_policies hids)
  simp only [hpq.isActive moment]

theorem status_eq (h : Reorders c d) (hids : c.UniqueIds)
    (last : Except Fault (Option Timestamp)) (now : Timestamp) :
    c.toStore.1.source.status last now = d.toStore.1.source.status last now := by
  have hwindows : c.toStore.1.source.hasTimeWindows = d.toStore.1.source.hasTimeWindows := by
    have hmap := map_eq_of_forall₂ (h.forall₂_policies hids) fun _ _ hpq => hpq.hasWindows
    have hany : (c.toStore.1.policies.map (·.hasWindows)).any id =
        (d.toStore.1.policies.map (·.hasWindows)).any id := by rw [hmap]
    rw [List.any_map, List.any_map] at hany
    exact congrArg Except.ok hany
  have hactive : c.toStore.1.source.activeIds = d.toStore.1.source.activeIds := by
    funext moment
    have hmap := map_eq_of_forall₂ (h.forall₂_activeAt hids moment) fun _ _ hpq => hpq.id
    exact congrArg (Except.ok ∘ OrderedSet.ofList) hmap
  simp only [PolicySource.status, PolicySource.activeChanged, hwindows, hactive]

theorem preview_eq (h : Reorders c d) (hids : c.UniqueIds) (interfaces : Interfaces)
    (moment : Timestamp) :
    ∃ script, c.toStore.1.source.preview interfaces moment = (.ok script, []) ∧
      d.toStore.1.source.preview interfaces moment = (.ok script, []) := by
  have hsame := map_eq_of_forall₂ (h.forall₂_activeAt hids moment) fun _ _ hpq => hpq.timeless
  have hlisted : ∀ p ∈ (c.toStore.1.activeAt moment).map Policy.timeless,
      ∃ q ∈ c.toStore.1.policies, q.id = p.id := by
    intro p hp
    obtain ⟨q, hq, rfl⟩ := List.mem_map.mp hp
    exact ⟨q, List.mem_of_mem_filter hq, rfl⟩
  obtain ⟨cs, hcs, -⟩ := PolicySource.exists_compilePolicies_of_bags fun p hp =>
    exists_bag (hlisted p hp)
  have hcs' : d.toStore.1.source.compilePolicies ((d.toStore.1.activeAt moment).map Policy.timeless)
      = (.ok cs, []) := by
    rw [← hsame, ← hcs]
    exact PolicySource.compilePolicies_congr fun p hp => (h.bag_eq hids (hlisted p hp)).symm
  refine ⟨(Plan.mk interfaces moment cs).script, ?_, ?_⟩
  · rw [Store.preview_source, hcs]
    rfl
  · rw [Store.preview_source, hcs']
    rfl

end views

end Reorders

/-- In whatever order the rows stand, save those of the policies, the decision is the same for every
record of a runner, and the script for every choice of interfaces. -/
theorem status_and_preview_of_reorders (c d : Catalog) (h : c.Reorders d) (hids : c.UniqueIds) :
    (∀ (σ : Type) (runner : Runner σ) (state : σ) (now : Timestamp),
      c.toStore.1.source.status (runner.last state) now =
        d.toStore.1.source.status (runner.last state) now) ∧
    ∀ (interfaces : Interfaces) (moment : Timestamp), ∃ script,
      c.toStore.1.source.preview interfaces moment = (.ok script, []) ∧
        d.toStore.1.source.preview interfaces moment = (.ok script, []) :=
  ⟨fun _ runner state now => h.status_eq hids (runner.last state) now, h.preview_eq hids⟩

/-- A policy with two windows, one of them given twice, and the links of its class, all turned
around. -/
theorem status_and_preview_of_turned_tables :
    let c : Catalog := {
      classes := [⟨1, "web", "", 1, true⟩, ⟨2, "mail", "", 0, true⟩]
      cidrs := [⟨1, "10.0.0.0", 8⟩, ⟨2, "192.168.1.0", 24⟩]
      ports := [⟨1, 80, 6⟩, ⟨2, 53, 0⟩]
      classCidrs := [⟨1, 1, "i"⟩, ⟨1, 2, "i"⟩, ⟨1, 1, "o"⟩]
      classPorts := [⟨1, 1, "o"⟩, ⟨2, 2, "o"⟩]
      policies := [⟨7, "guests", none, true, some 3, none, none⟩,
        ⟨9, "staff", none, true, some 1, none, none⟩]
      targets := [⟨1, 7, some 1, "d", none⟩, ⟨2, 7, some 2, "d", none⟩, ⟨3, 9, none, "o", none⟩]
      windows := [⟨1, 7, 1, "08:00", "12:00"⟩, ⟨2, 7, 1, "13:00", "17:00"⟩,
        ⟨3, 7, 1, "08:00", "12:00"⟩] }
    let d : Catalog := {
      classes := c.classes.reverse
      cidrs := c.cidrs.reverse
      ports := c.ports.reverse
      classCidrs := c.classCidrs.reverse
      classPorts := c.classPorts.reverse
      policies := c.policies
      targets := c.targets.reverse
      windows := c.windows.reverse }
    c.Reorders d ∧ c.UniqueIds ∧
      (∀ (σ : Type) (runner : Runner σ) (state : σ) (now : Timestamp),
        c.toStore.1.source.status (runner.last state) now =
          d.toStore.1.source.status (runner.last state) now) ∧
      ∀ (interfaces : Interfaces) (moment : Timestamp), ∃ script,
        c.toStore.1.source.preview interfaces moment = (.ok script, []) ∧
          d.toStore.1.source.preview interfaces moment = (.ok script, []) := by
  intro c d
  have h : c.Reorders d :=
    { policies := rfl
      classes := (List.reverse_perm _).symm
      cidrs := (List.reverse_perm _).symm
      ports := (List.reverse_perm _).symm
      classCidrs := (List.reverse_perm _).symm
      classPorts := (List.reverse_perm _).symm
      targets := (List.reverse_perm _).symm
      windows := (List.reverse_perm _).symm }
  have hids : c.UniqueIds := ⟨by decide, by decide, by decide⟩
  exact ⟨h, hids, status_and_preview_of_reorders c d h hids⟩

end Catalog

end TrafficWarden
