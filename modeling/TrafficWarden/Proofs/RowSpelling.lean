import TrafficWarden.Catalog.Intake
import TrafficWarden.Proofs.AddressSpelling
import TrafficWarden.Proofs.Results

/-!
# What the rows of a catalog spell

A row spells a value if its texts and numbers are those of the value. Numbers are compared as they
stand, so a number out of the range of its field spells nothing. A row is read as exactly the value
that it spells.
-/

namespace TrafficWarden

open Calendar

/-- A row is the last one of a table with an identity. -/
def IsLast {α : Type} (key : α → Int) (rows : List α) (id : Int) (row : α) : Prop :=
  ∃ before after, rows = before ++ row :: after ∧ key row = id ∧ ∀ r ∈ after, key r ≠ id

theorem find?_reverse_eq_some_iff {α : Type} {key : α → Int} {rows : List α} {id : Int} {row : α} :
    rows.reverse.find? (fun r => decide (key r = id)) = some row ↔ IsLast key rows id row := by
  rw [List.find?_eq_some_iff_append]
  constructor
  · rintro ⟨hkey, after, before, hrows, hafter⟩
    refine ⟨before.reverse, after.reverse, ?_, by simpa using hkey, by simpa using hafter⟩
    simpa using congrArg List.reverse hrows
  · rintro ⟨before, after, rfl, hkey, hafter⟩
    exact ⟨by simpa using hkey, after.reverse, before.reverse, by simp, by simpa using hafter⟩

theorem IsLast.mem {α : Type} {key : α → Int} {rows : List α} {id : Int} {row : α}
    (h : IsLast key rows id row) : row ∈ rows ∧ key row = id := by
  obtain ⟨before, after, rfl, hkey, -⟩ := h
  exact ⟨by simp, hkey⟩

theorem IsLast.unique {α : Type} {key : α → Int} {rows : List α} {id : Int} {row other : α}
    (h : IsLast key rows id row) (h' : IsLast key rows id other) : row = other :=
  Option.some.inj ((find?_reverse_eq_some_iff.mpr h).symm.trans (find?_reverse_eq_some_iff.mpr h'))

theorem exists_isLast {α : Type} {key : α → Int} {rows : List α} {row : α} (h : row ∈ rows) :
    ∃ last, IsLast key rows (key row) last := by
  have hsome : (rows.reverse.find? (fun r => decide (key r = key row))).isSome = true := by
    rw [List.find?_isSome]
    exact ⟨row, List.mem_reverse.mpr h, by simp⟩
  obtain ⟨last, hlast⟩ := Option.isSome_iff_exists.mp hsome
  exact ⟨last, find?_reverse_eq_some_iff.mp hlast⟩

section codes

/-- The codes of a role: its letter and its name. -/
def Role.codes : Role → List String
  | .source => ["o", "source"]
  | .destination => ["d", "destination"]

/-- The codes of a side of the gateway: its letter and its name. -/
def Side.codes : Side → List String
  | .inside => ["i", "inside"]
  | .outside => ["o", "outside"]

theorem readRole_eq_ok_iff {raw : String} {role : Role} :
    Catalog.readRole raw = .ok role ↔ Catalog.foldCode raw ∈ role.codes := by
  unfold Catalog.readRole
  split <;> cases role <;> simp_all [Role.codes]

theorem readGroup_eq_ok_iff {raw : String} {side : Side} :
    Catalog.readGroup raw = .ok side ↔ Catalog.foldCode raw ∈ side.codes := by
  unfold Catalog.readGroup
  split <;> cases side <;> simp_all [Side.codes]

/-- The number of a day, from Sunday as 0. -/
def Calendar.Weekday.sundayIndex : Weekday → Int
  | .sunday => 0
  | .monday => 1
  | .tuesday => 2
  | .wednesday => 3
  | .thursday => 4
  | .friday => 5
  | .saturday => 6

theorem Calendar.Weekday.ofSundayIndex?_eq_some_iff {n : Int} {day : Weekday} :
    ofSundayIndex? n = some day ↔ n = day.sundayIndex := by
  unfold ofSundayIndex?
  split <;> cases day <;> simp_all [sundayIndex]

/-- The IP protocol number; 0 stands for no protocol. -/
def Protocol.number : Protocol → Int
  | .any => 0
  | .tcp => 6
  | .udp => 17

theorem Protocol.ofNumber?_eq_some_iff {n : Int} {p : Protocol} :
    ofNumber? n = some p ↔ n = p.number := by
  unfold ofNumber?
  split <;> cases p <;> simp_all [number]

end codes

namespace CidrRow

structure Spells (row : CidrRow) (s : Subnet) : Prop where
  address : Text.trimmed row.address = s.address.text
  length : row.length = s.length

/-- An IPv4 address with blanks around it, and a length from 0 to 32. -/
structure Valid (row : CidrRow) : Prop where
  address : ∃ ip : Ipv4, Text.trimmed row.address = ip.text
  length : 0 ≤ row.length ∧ row.length ≤ 32

theorem read?_address_iff {row : CidrRow} {ip : Ipv4} :
    Ipv4.read? (Text.trim row.address.toList) = some ip ↔ Text.trimmed row.address = ip.text := by
  rw [Ipv4.read?_eq_some_iff, Text.trimmed, ← String.toList_inj, String.toList_ofList]

theorem of?_eq_some_iff {address : Ipv4} {length : Int} {s : Subnet} :
    Subnet.of? address length = some s ↔ address = s.address ∧ length = s.length := by
  unfold Subnet.of?
  split
  · rename_i hrange
    rw [Option.some.injEq]
    constructor
    · rintro rfl
      exact ⟨rfl, by simp [Int.toNat_of_nonneg hrange.1]⟩
    · rintro ⟨rfl, rfl⟩
      simp
  · rename_i hrange
    refine iff_of_false (by simp) ?_
    rintro ⟨-, hlength⟩
    have := s.length_le
    omega

/-- A row is read as the subnet that it spells. -/
theorem read_eq_ok_iff {row : CidrRow} {s : Subnet} : row.read = .ok s ↔ row.Spells s := by
  unfold read
  cases haddress : Ipv4.read? (Text.trim row.address.toList) with
  | none =>
    refine iff_of_false (by simp) fun h => ?_
    rw [read?_address_iff.mpr h.address] at haddress
    exact absurd haddress (by simp)
  | some ip =>
    have hip := read?_address_iff.mp haddress
    have hspells : row.Spells s ↔ Subnet.of? ip row.length = some s := by
      rw [of?_eq_some_iff]
      constructor
      · intro h
        refine ⟨?_, h.length⟩
        exact Option.some.inj (haddress.symm.trans (read?_address_iff.mpr h.address))
      · rintro ⟨rfl, hlength⟩
        exact ⟨hip, hlength⟩
    rw [hspells]
    cases hof : Subnet.of? ip row.length <;> simp [hof]

theorem exists_spells_iff {row : CidrRow} : (∃ s, row.Spells s) ↔ row.Valid := by
  constructor
  · rintro ⟨s, h⟩
    have hlength := h.length
    have hle := s.length_le
    exact ⟨⟨s.address, h.address⟩, by omega, by omega⟩
  · rintro ⟨⟨ip, hip⟩, hlow, hhigh⟩
    exact ⟨⟨ip, row.length.toNat, by omega⟩, hip, (Int.toNat_of_nonneg hlow).symm⟩

end CidrRow

namespace PortRow

structure Spells (row : PortRow) (p : Port) : Prop where
  number : row.number = p.number.toNat
  protocol : row.protocol = p.protocol.number

/-- A number of 16 bits, and the number of a protocol or of none. -/
structure Valid (row : PortRow) : Prop where
  number : 0 ≤ row.number ∧ row.number ≤ 65535
  protocol : row.protocol = 0 ∨ row.protocol = 6 ∨ row.protocol = 17

theorem exists_protocol_iff {n : Int} :
    (∃ p : Protocol, n = p.number) ↔ n = 0 ∨ n = 6 ∨ n = 17 := by
  constructor
  · rintro ⟨p, rfl⟩
    cases p <;> simp [Protocol.number]
  · rintro (rfl | rfl | rfl)
    · exact ⟨.any, rfl⟩
    · exact ⟨.tcp, rfl⟩
    · exact ⟨.udp, rfl⟩

/-- A row is read as the port that it spells. -/
theorem read_eq_ok_iff {row : PortRow} {p : Port} : row.read = .ok p ↔ row.Spells p := by
  unfold read
  split
  · rename_i hrange
    simp only [Bool.or_eq_true, decide_eq_true_eq] at hrange
    refine iff_of_false (by simp) fun h => ?_
    have hnumber := h.number
    have hlt := p.number.toNat_lt
    omega
  · rename_i hrange
    simp only [Bool.or_eq_true, decide_eq_true_eq, not_or, Int.not_lt] at hrange
    have hvalue : row.number.toNat.toUInt16.toNat = row.number.toNat := by
      simp only [Nat.toUInt16_eq, UInt16.toNat_ofNat']
      omega
    cases hprotocol : Protocol.ofNumber? row.protocol with
    | none =>
      refine iff_of_false (by simp) fun h => ?_
      rw [Protocol.ofNumber?_eq_some_iff.mpr h.protocol] at hprotocol
      exact absurd hprotocol (by simp)
    | some protocol =>
      simp only [Except.ok.injEq]
      constructor
      · rintro rfl
        exact ⟨by rw [hvalue, Int.toNat_of_nonneg hrange.1],
          Protocol.ofNumber?_eq_some_iff.mp hprotocol⟩
      · rintro ⟨hnumber, hp⟩
        rw [Protocol.ofNumber?_eq_some_iff.mpr hp] at hprotocol
        rw [hnumber, ← Option.some.inj hprotocol]
        simp

theorem exists_spells_iff {row : PortRow} : (∃ p, row.Spells p) ↔ row.Valid := by
  constructor
  · rintro ⟨p, h⟩
    have hnumber := h.number
    have hlt := p.number.toNat_lt
    exact ⟨by omega, exists_protocol_iff.mp ⟨p.protocol, h.protocol⟩⟩
  · rintro ⟨⟨hlow, hhigh⟩, hprotocol⟩
    obtain ⟨protocol, hp⟩ := exists_protocol_iff.mpr hprotocol
    refine ⟨⟨row.number.toNat.toUInt16, protocol⟩, ?_, hp⟩
    simp only [Nat.toUInt16_eq, UInt16.toNat_ofNat']
    omega

end PortRow

namespace WindowRow

structure Spells (row : WindowRow) (w : TimeWindow) : Prop where
  weekday : row.weekday = w.weekday.sundayIndex
  start : TimeOfDay.read? row.start = some w.start
  stop : TimeOfDay.read? row.stop = some w.stop

/-- A day from 0 to 6, and two times of day in their order. -/
structure Valid (row : WindowRow) : Prop where
  weekday : 0 ≤ row.weekday ∧ row.weekday ≤ 6
  times : ∃ start stop, TimeOfDay.read? row.start = some start ∧
    TimeOfDay.read? row.stop = some stop ∧ start ≤ stop

theorem exists_weekday_iff {n : Int} :
    (∃ day : Weekday, n = day.sundayIndex) ↔ 0 ≤ n ∧ n ≤ 6 := by
  constructor
  · rintro ⟨day, rfl⟩
    cases day <;> simp [Weekday.sundayIndex]
  · rintro ⟨hlow, hhigh⟩
    have hcases : n = 0 ∨ n = 1 ∨ n = 2 ∨ n = 3 ∨ n = 4 ∨ n = 5 ∨ n = 6 := by omega
    rcases hcases with rfl | rfl | rfl | rfl | rfl | rfl | rfl
    exacts [⟨.sunday, rfl⟩, ⟨.monday, rfl⟩, ⟨.tuesday, rfl⟩, ⟨.wednesday, rfl⟩, ⟨.thursday, rfl⟩,
      ⟨.friday, rfl⟩, ⟨.saturday, rfl⟩]

theorem of?_eq_some_iff {day : Weekday} {start stop : TimeOfDay} {w : TimeWindow} :
    TimeWindow.of? day start stop = some w ↔
      day = w.weekday ∧ start = w.start ∧ stop = w.stop := by
  unfold TimeWindow.of?
  split
  · rw [Option.some.injEq]
    constructor
    · rintro rfl
      exact ⟨rfl, rfl, rfl⟩
    · rintro ⟨rfl, rfl, rfl⟩
      rfl
  · rename_i horder
    refine iff_of_false (by simp) ?_
    rintro ⟨-, rfl, rfl⟩
    exact horder w.start_le_stop

/-- A row is read as the window that it spells. -/
theorem read_eq_ok_iff {row : WindowRow} {w : TimeWindow} : row.read = .ok w ↔ row.Spells w := by
  have hspells : row.Spells w ↔ ∃ day, Weekday.ofSundayIndex? row.weekday = some day ∧
      ∃ start, TimeOfDay.read? row.start = some start ∧
        ∃ stop, TimeOfDay.read? row.stop = some stop ∧
          TimeWindow.of? day start stop = some w := by
    simp only [of?_eq_some_iff, Weekday.ofSundayIndex?_eq_some_iff]
    constructor
    · intro h
      exact ⟨_, h.weekday, _, h.start, _, h.stop, rfl, rfl, rfl⟩
    · rintro ⟨_, hday, _, hstart, _, hstop, rfl, rfl, rfl⟩
      exact ⟨hday, hstart, hstop⟩
  rw [hspells]
  unfold read
  cases Weekday.ofSundayIndex? row.weekday with
  | none => simp
  | some day =>
    cases TimeOfDay.read? row.start with
    | none => simp
    | some start =>
      cases TimeOfDay.read? row.stop with
      | none => simp
      | some stop => cases hof : TimeWindow.of? day start stop <;> simp [hof]

theorem exists_spells_iff {row : WindowRow} : (∃ w, row.Spells w) ↔ row.Valid := by
  constructor
  · rintro ⟨w, h⟩
    exact ⟨exists_weekday_iff.mp ⟨_, h.weekday⟩, w.start, w.stop, h.start, h.stop, w.start_le_stop⟩
  · rintro ⟨hweekday, start, stop, hstart, hstop, horder⟩
    obtain ⟨day, hday⟩ := exists_weekday_iff.mpr hweekday
    exact ⟨⟨day, start, stop, horder⟩, hday, hstart, hstop⟩

end WindowRow

namespace TargetRow

/-- The MAC address of a row; a blank one is none. -/
def writtenMac (row : TargetRow) : Option String := row.mac.filter fun raw => !Text.isBlankText raw

structure Spells (row : TargetRow) (t : Target) : Prop where
  id : t.id = ⟨row.id⟩
  policy : t.policy = ⟨row.policy⟩
  role : Catalog.foldCode row.role ∈ t.role.codes
  trafficClass : t.trafficClass = row.trafficClass.map EntityId.mk
  mac : t.mac.map (·.text) = row.writtenMac.map MacAddress.normalized

/-- The code of a role, and a MAC address or none. -/
structure Valid (row : TargetRow) : Prop where
  role : ∃ role : Role, Catalog.foldCode row.role ∈ role.codes
  mac : ∀ raw, row.writtenMac = some raw → ∃ m : MacAddress, MacAddress.normalized raw = m.text

theorem readMac_eq_ok_iff {row : TargetRow} {mac : Option MacAddress} :
    row.readMac = .ok mac ↔ mac.map (·.text) = row.writtenMac.map MacAddress.normalized := by
  unfold readMac writtenMac
  cases row.mac with
  | none => cases mac <;> simp
  | some raw =>
    cases hblank : Text.isBlankText raw with
    | true => cases mac <;> simp [Option.filter_some, hblank]
    | false =>
      simp only [Option.filter_some, hblank, Bool.not_false, if_true, Bool.false_eq_true, if_false,
        Option.map_some]
      cases hread : MacAddress.read? raw with
      | none =>
        refine iff_of_false (by simp) fun h => ?_
        obtain ⟨m, -, hm⟩ := Option.map_eq_some_iff.mp h
        rw [(MacAddress.read?_eq_some_iff raw m).mpr hm.symm] at hread
        exact absurd hread (by simp)
      | some m =>
        have htext : ∀ m', m'.text = MacAddress.normalized raw ↔ m = m' := by
          intro m'
          rw [eq_comm, ← MacAddress.read?_eq_some_iff, hread, Option.some.injEq]
        cases mac <;> simp [htext]

/-- A row is read as the target that it spells, if the traffic class that it names is known. -/
theorem read_eq_ok_iff {known : List Int} {row : TargetRow} {t : Target} :
    row.read known = .ok t ↔
      row.Spells t ∧ ∀ c, row.trafficClass = some c → c ∈ known := by
  have hspells : row.Spells t ↔ ∃ role, Catalog.readRole row.role = .ok role ∧
      ∃ mac, row.readMac = .ok mac ∧
        ⟨⟨row.id⟩, ⟨row.policy⟩, role, row.trafficClass.map EntityId.mk, mac⟩ = t := by
    simp only [readRole_eq_ok_iff, readMac_eq_ok_iff]
    constructor
    · intro h
      refine ⟨_, h.role, _, h.mac, ?_⟩
      rw [← h.id, ← h.policy, ← h.trafficClass]
    · rintro ⟨role, hrole, mac, hmac, rfl⟩
      exact ⟨rfl, rfl, hrole, rfl, hmac⟩
  rw [hspells]
  unfold read
  cases Catalog.readRole row.role with
  | error reason => simp
  | ok role =>
    cases row.readMac with
    | error reason => simp
    | ok mac =>
      cases row.trafficClass with
      | none => simp
      | some c =>
        by_cases hc : c ∈ known
        · simp [hc]
        · simp [hc]

theorem exists_spells_iff {row : TargetRow} : (∃ t, row.Spells t) ↔ row.Valid := by
  constructor
  · rintro ⟨t, h⟩
    refine ⟨⟨t.role, h.role⟩, fun raw hraw => ?_⟩
    have hmac := h.mac
    rw [hraw, Option.map_some, Option.map_eq_some_iff] at hmac
    obtain ⟨m, -, hm⟩ := hmac
    exact ⟨m, hm.symm⟩
  · rintro ⟨⟨role, hrole⟩, hmac⟩
    have hexists : ∃ mac : Option MacAddress,
        mac.map (·.text) = row.writtenMac.map MacAddress.normalized := by
      cases hraw : row.writtenMac with
      | none => exact ⟨none, rfl⟩
      | some raw =>
        obtain ⟨m, hm⟩ := hmac raw hraw
        exact ⟨some m, by simp [hm]⟩
    obtain ⟨mac, hmac⟩ := hexists
    exact ⟨⟨⟨row.id⟩, ⟨row.policy⟩, role, row.trafficClass.map EntityId.mk, mac⟩, rfl, rfl, hrole,
      rfl, hmac⟩

theorem rightUnique_spells : Relator.RightUnique Spells := by
  intro row t t' h h'
  have hread : ∀ {t : Target}, row.Spells t → row.read row.trafficClass.toList = .ok t :=
    fun h => read_eq_ok_iff.mpr ⟨h, fun c hc => by simp [hc]⟩
  exact Except.ok.inj ((hread h).symm.trans (hread h'))

end TargetRow

namespace PolicyRow

/-- A cap is the number of a row as it stands, and none if that is zero. -/
def CapIs (raw : Option Int) (cap : Option UInt32) : Prop :=
  cap.map (fun n => (n.toNat : Int)) = raw.filter (· ≠ 0)

/-- What a row says of its policy, save the windows, which have rows of their own. -/
structure Spells (row : PolicyRow) (p : Policy) : Prop where
  id : p.id = ⟨row.id⟩
  name : p.name = row.name
  description : p.description = row.description
  enabled : p.enabled = row.enabled
  priority : p.priority.map Priority.value = row.priority
  upload : CapIs row.upload p.upload
  download : CapIs row.download p.download

/-- No cap, or one of 32 bits; zero stands for none. -/
def CapValid (raw : Option Int) : Prop := ∀ n, raw = some n → n = 0 ∨ 1 ≤ n ∧ n ≤ 4294967295

/-- The priority of a row is one of the three tiers, and its caps are in their range. -/
structure Valid (row : PolicyRow) : Prop where
  priority : ∀ n, row.priority = some n → n = 1 ∨ n = 3 ∨ n = 7
  upload : CapValid row.upload
  download : CapValid row.download

theorem readPriority_eq_ok_iff {raw : Option Int} {priority : Option Priority} :
    readPriority raw = .ok priority ↔ priority.map Priority.value = raw := by
  unfold readPriority
  cases raw with
  | none => cases priority <;> simp
  | some n =>
    have hvalue : ∀ p, p.value = n ↔ Priority.ofValue? n = some p := by
      intro p
      rw [Priority.ofValue?_eq_some_iff, eq_comm]
    cases hof : Priority.ofValue? n <;> cases priority <;> simp [hvalue, hof]

theorem exists_priority_iff {raw : Option Int} :
    (∃ priority : Option Priority, priority.map Priority.value = raw) ↔
      ∀ n, raw = some n → n = 1 ∨ n = 3 ∨ n = 7 := by
  constructor
  · rintro ⟨priority, rfl⟩ n hn
    obtain ⟨p, -, rfl⟩ := Option.map_eq_some_iff.mp hn
    cases p <;> simp [Priority.value]
  · intro h
    cases raw with
    | none => exact ⟨none, rfl⟩
    | some n =>
      rcases h n rfl with rfl | rfl | rfl
      exacts [⟨some .high, rfl⟩, ⟨some .normal, rfl⟩, ⟨some .low, rfl⟩]

theorem readCap_eq_ok_iff {direction : String} {raw : Option Int} {cap : Option UInt32} :
    readCap direction raw = .ok cap ↔ CapIs raw cap := by
  unfold readCap CapIs
  cases raw with
  | none => cases cap <;> simp
  | some n =>
    by_cases hzero : n = 0
    · cases cap <;> simp [Option.filter_some, hzero]
    · by_cases hrange : 0 < n ∧ n ≤ 0xFFFFFFFF
      · have hvalue : ∀ m : UInt32, (m.toNat : Int) = n ↔ n.toNat.toUInt32 = m := by
          intro m
          rw [← UInt32.toNat_inj]
          simp only [Nat.toUInt32_eq, UInt32.toNat_ofNat']
          omega
        cases cap <;> simp [Option.filter_some, hzero, hrange, hvalue]
      · have hvalue : ∀ m : UInt32, (m.toNat : Int) ≠ n := by
          intro m
          have hlt := m.toNat_lt
          omega
        cases cap <;> simp [Option.filter_some, hzero, hrange, hvalue]

theorem exists_capIs_iff {raw : Option Int} : (∃ cap, CapIs raw cap) ↔ CapValid raw := by
  constructor
  · rintro ⟨cap, hcap⟩ n rfl
    by_cases hzero : n = 0
    · exact .inl hzero
    · have hsome : cap.map (fun m => (m.toNat : Int)) = some n := by
        simpa [CapIs, Option.filter_some, hzero] using hcap
      obtain ⟨m, -, rfl⟩ := Option.map_eq_some_iff.mp hsome
      have hlt := m.toNat_lt
      exact .inr ⟨by omega, by omega⟩
  · intro h
    cases raw with
    | none => exact ⟨none, rfl⟩
    | some n =>
      rcases h n rfl with rfl | ⟨hlow, hhigh⟩
      · exact ⟨none, rfl⟩
      · have hzero : n ≠ 0 := by omega
        refine ⟨some n.toNat.toUInt32, ?_⟩
        simp only [CapIs, Option.map_some, Nat.toUInt32_eq, UInt32.toNat_ofNat', Option.filter_some,
          ne_eq, hzero, not_false_eq_true, decide_true, if_true, Option.some.injEq]
        omega

end PolicyRow

end TrafficWarden
