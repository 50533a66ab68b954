import TrafficWarden.Proofs.PacketMatching

/-!
# What compiled rules match

A bag admits a packet by what its sets say of it. The forward rules of a bag match exactly the
packets that it admits, and the reverses after them exactly those whose reverse it admits.
-/

namespace TrafficWarden

theorem Role.forall_iff {P : Role → Prop} : (∀ side, P side) ↔ P .source ∧ P .destination :=
  ⟨fun h => ⟨h _, h _⟩, fun h side => by cases side; exacts [h.1, h.2]⟩

theorem Role.exists_iff {P : Role → Prop} : (∃ side, P side) ↔ P .source ∨ P .destination :=
  ⟨fun ⟨side, h⟩ => by cases side; exacts [.inl h, .inr h], fun h => h.elim (⟨_, ·⟩) (⟨_, ·⟩)⟩

namespace OrderedSet

variable {α : Type} [Ranked α]

/-- Whether some value of a set has a property. An empty set asks for nothing. -/
def Allows (s : OrderedSet α) (P : α → Prop) : Prop := s = ∅ ∨ ∃ a ∈ s, P a

theorem toList_eq_nil {s : OrderedSet α} : s.toList = [] ↔ s = ∅ := by
  cases s with | mk items _ =>
  constructor
  · rintro rfl
    rfl
  · intro h
    exact congrArg toList h

@[simp] theorem isEmpty_iff {s : OrderedSet α} : s.isEmpty = true ↔ s = ∅ := by
  rw [isEmpty, List.isEmpty_iff, toList_eq_nil]

@[simp] theorem allows_empty (P : α → Prop) : (∅ : OrderedSet α).Allows P := .inl rfl

theorem allows_iff_exists {s : OrderedSet α} (h : s ≠ ∅) (P : α → Prop) :
    s.Allows P ↔ ∃ a ∈ s, P a := by
  simp [Allows, h]

end OrderedSet

namespace ParameterBag

/-- A bag admits a packet when every side with subnets contains its address, some MAC address is its
own if there are any, and it suits the ports. Without any port that is all; else its protocol has
to have ports, and every side with ports of that protocol has to have its port. -/
structure Admits (b : ParameterBag) (p : Packet) : Prop where
  networks : ∀ side, (b.networks.get side).Allows fun s => s.contains (p.addresses.get side) = true
  macs : b.macs.Allows fun m => m = p.mac
  ports : (∀ t side, (b.ports t).get side = ∅) ∨
    ∃ t, p.protocol = t.number ∧ (∃ side, (b.ports t).get side ≠ ∅) ∧
      ∀ side, ((b.ports t).get side).Allows fun n => p.ports.get side = n

theorem admits_empty (p : Packet) : (∅ : ParameterBag).Admits p where
  networks side := by cases side <;> exact .inl rfl
  macs := .inl rfl
  ports := .inl fun t side => by cases t <;> cases side <;> rfl

/-- What a bag gives to the flags of its rules. -/
inductive Gives (b : ParameterBag) : Flag → FlagValue → Prop
  | macExtension : Gives b .macExtension .marker
  | macSource {m : MacAddress} (h : m ∈ b.macs) : Gives b .macSource (.text m.text)
  | sourceIp (h : b.networks.source ≠ ∅) : Gives b .sourceIp (subnetList b.networks.source)
  | destinationIp (h : b.networks.destination ≠ ∅) :
    Gives b .destinationIp (subnetList b.networks.destination)
  | protocol (t : Transport) : Gives b .protocol (.transport t)
  | sourcePort {t : Transport} {n : UInt16} (h : n ∈ (b.ports t).source) :
    Gives b .sourcePort (.port n)
  | destinationPort {t : Transport} {n : UInt16} (h : n ∈ (b.ports t).destination) :
    Gives b .destinationPort (.port n)

/-- The stage of a flag in the compilation. -/
def stage : Flag → Nat
  | .sourceIp | .destinationIp => 0
  | .protocol | .sourcePort | .destinationPort => 1
  | _ => 2

section networks

theorem listCovers_subnetList {s : OrderedSet Subnet} (h : s ≠ ∅) (ip : Ipv4) :
    Subnet.listCovers (",".intercalate (s.toList.map (·.text))) ip = true ↔
      ∃ a ∈ s, a.contains ip = true := by
  have hne : s.toList ≠ [] := fun hn => h (OrderedSet.toList_eq_nil.mp hn)
  simp [Subnet.listCovers, Subnet.readList?_intercalate hne, Subnet.contains_iff_mask]

/-- Giving a flag the subnets of a set, if there are any, adds the question for them. -/
theorem accepts_setSubnets {f : Flag} {s : OrderedSet Subnet} {r : Rule} {p : Packet} {ip : Ipv4}
    (hr : r.get f = none) (hf : ∀ text, f.accepts (.text text) p = Subnet.listCovers text ip) :
    (setSubnets f s r).accepts p = true ↔
      s.Allows (fun a => a.contains ip = true) ∧ r.accepts p = true := by
  unfold setSubnets
  by_cases hs : s = ∅
  · simp [hs]
  · rw [if_neg (by simpa using hs), Rule.accepts_set _ _ hr, subnetList, hf,
      listCovers_subnetList hs, OrderedSet.allows_iff_exists hs]

theorem passes_networkRules (b : ParameterBag) (p : Packet) :
    Rule.Passes b.networkRules p ↔
      ∀ side, (b.networks.get side).Allows fun s => s.contains (p.addresses.get side) = true := by
  rw [Role.forall_iff, networkRules]
  split
  · rw [Rule.passes_singleton, accepts_setSubnets _ fun _ => rfl, accepts_setSubnets rfl fun _ => rfl]
    · simp [BothSides.get, and_comm]
    · unfold setSubnets
      split <;> rfl
  · rename_i h
    have hs : b.networks.source = ∅ ∧ b.networks.destination = ∅ := by
      simpa [hasNetworks] using h
    simp [BothSides.get, hs.1, hs.2]

theorem every_networkRules (b : ParameterBag) :
    ∀ r ∈ b.networkRules, r.Every fun f v => stage f = 0 ∧ b.Gives f v := by
  have hset : ∀ {f : Flag} {s : OrderedSet Subnet} {r : Rule},
      (s ≠ ∅ → stage f = 0 ∧ b.Gives f (subnetList s)) →
      (r.Every fun f v => stage f = 0 ∧ b.Gives f v) →
      (setSubnets f s r).Every fun f v => stage f = 0 ∧ b.Gives f v := by
    intro f s r hs hr
    unfold setSubnets
    split
    · exact hr
    · rename_i hne
      exact hr.set (hs (by simpa using hne))
  unfold networkRules
  split
  · intro r hr
    rw [List.mem_singleton] at hr
    subst hr
    exact hset (fun h => ⟨rfl, .destinationIp h⟩) (hset (fun h => ⟨rfl, .sourceIp h⟩) Rule.every_empty)
  · simp

end networks

section ports

theorem transportRules_eq_nil {t : Transport} {ports : BothSides (OrderedSet UInt16)} :
    transportRules t ports = [] ↔ ∀ side, ports.get side = ∅ := by
  rw [Role.forall_iff, ← OrderedSet.toList_eq_nil, ← OrderedSet.toList_eq_nil, BothSides.get,
    BothSides.get, transportRules]
  cases ports.source.toList <;> cases ports.destination.toList <;> simp

theorem accepts_setProtocol (t : Transport) (p : Packet) :
    ((∅ : Rule).set .protocol (.transport t)).accepts p = true ↔ p.protocol = t.number := by
  rw [Rule.accepts_set _ _ rfl, Flag.accepts, beq_iff_eq]
  simp

theorem accepts_setSourcePort {r : Rule} (hr : r.get .sourcePort = none) (n : UInt16) (p : Packet) :
    (r.set .sourcePort (.port n)).accepts p = true ↔ p.ports.source = n ∧ r.accepts p = true := by
  rw [Rule.accepts_set _ _ hr, Flag.accepts, beq_iff_eq]

theorem accepts_setDestinationPort {r : Rule} (hr : r.get .destinationPort = none) (n : UInt16)
    (p : Packet) : (r.set .destinationPort (.port n)).accepts p = true ↔
      p.ports.destination = n ∧ r.accepts p = true := by
  rw [Rule.accepts_set _ _ hr, Flag.accepts, beq_iff_eq]

theorem exists_transportRules_accepts (t : Transport) (ports : BothSides (OrderedSet UInt16))
    (p : Packet) :
    (∃ r ∈ transportRules t ports, r.accepts p = true) ↔
      p.protocol = t.number ∧ (∃ side, ports.get side ≠ ∅) ∧
        ∀ side, (ports.get side).Allows fun n => p.ports.get side = n := by
  have hsource : ∀ n, (((∅ : Rule).set .protocol (.transport t)).set .sourcePort (.port n)).accepts p
      = true ↔ p.ports.source = n ∧ p.protocol = t.number := fun n => by
    rw [accepts_setSourcePort rfl, accepts_setProtocol]
  have hdest : ∀ n, (((∅ : Rule).set .protocol (.transport t)).set .destinationPort (.port n)).accepts
      p = true ↔ p.ports.destination = n ∧ p.protocol = t.number := fun n => by
    rw [accepts_setDestinationPort rfl, accepts_setProtocol]
  have hboth : ∀ n m, ((((∅ : Rule).set .protocol (.transport t)).set .sourcePort (.port n)).set
      .destinationPort (.port m)).accepts p = true ↔
        p.ports.destination = m ∧ p.ports.source = n ∧ p.protocol = t.number := fun n m => by
    rw [accepts_setDestinationPort rfl, hsource]
  rw [Role.forall_iff, Role.exists_iff]
  simp only [OrderedSet.Allows, ← OrderedSet.toList_eq_nil, ← OrderedSet.mem_toList, ne_eq,
    BothSides.get, transportRules]
  cases ports.source.toList <;> cases ports.destination.toList <;>
    simp only [List.mem_map, List.mem_flatMap, exists_exists_and_eq_and, ↓existsAndEq, and_true,
      hsource, hdest, hboth]
  · simp
  all_goals simp [and_comm]

theorem passes_portRules (b : ParameterBag) (p : Packet) :
    Rule.Passes b.portRules p ↔ (∀ t side, (b.ports t).get side = ∅) ∨
      ∃ t, p.protocol = t.number ∧ (∃ side, (b.ports t).get side ≠ ∅) ∧
        ∀ side, ((b.ports t).get side).Allows fun n => p.ports.get side = n := by
  have hall : ∀ {P : Transport → Prop}, (∀ t, P t) ↔ P .tcp ∧ P .udp :=
    ⟨fun h => ⟨h _, h _⟩, fun h t => by cases t; exacts [h.1, h.2]⟩
  have hex : ∀ {P : Transport → Prop}, (∃ t, P t) ↔ P .tcp ∨ P .udp :=
    ⟨fun ⟨t, h⟩ => by cases t; exacts [.inl h, .inr h], fun h => h.elim (⟨_, ·⟩) (⟨_, ·⟩)⟩
  rw [hall, hex, Rule.Passes, portRules, List.append_eq_nil_iff, transportRules_eq_nil,
    transportRules_eq_nil]
  simp only [List.mem_append, or_and_right, exists_or, exists_transportRules_accepts, ports]

theorem every_portRules (b : ParameterBag) :
    ∀ r ∈ b.portRules, r.Every fun f v => stage f = 1 ∧ b.Gives f v := by
  have htransport : ∀ t, ∀ r ∈ transportRules t (b.ports t),
      r.Every fun f v => stage f = 1 ∧ b.Gives f v := by
    intro t r hr
    have hbase : ((∅ : Rule).set .protocol (.transport t)).Every
        fun f v => stage f = 1 ∧ b.Gives f v := Rule.every_empty.set ⟨rfl, .protocol t⟩
    unfold transportRules at hr
    split at hr
    · simp at hr
    · obtain ⟨n, hn, rfl⟩ := List.mem_map.mp hr
      exact hbase.set ⟨rfl, .sourcePort hn⟩
    · obtain ⟨n, hn, rfl⟩ := List.mem_map.mp hr
      exact hbase.set ⟨rfl, .destinationPort hn⟩
    · obtain ⟨n, hn, hr⟩ := List.mem_flatMap.mp hr
      obtain ⟨m, hm, rfl⟩ := List.mem_map.mp hr
      exact (hbase.set ⟨rfl, .sourcePort hn⟩).set ⟨rfl, .destinationPort hm⟩
  intro r hr
  rcases List.mem_append.mp hr with hr | hr
  exacts [htransport .tcp r hr, htransport .udp r hr]

end ports

section macs

theorem passes_macRules (b : ParameterBag) (p : Packet) :
    Rule.Passes b.macRules p ↔ b.macs.Allows fun m => m = p.mac := by
  have hrule : ∀ m : MacAddress, (((∅ : Rule).set .macExtension .marker).set .macSource
      (.text m.text)).accepts p = true ↔ m = p.mac := by
    intro m
    rw [Rule.accepts_set _ _ rfl, Rule.accepts_set _ _ rfl]
    simp [Flag.accepts]
  rw [Rule.Passes, macRules, List.map_eq_nil_iff, OrderedSet.toList_eq_nil, OrderedSet.Allows]
  simp only [List.mem_map, exists_exists_and_eq_and, hrule, OrderedSet.mem_toList]

theorem every_macRules (b : ParameterBag) :
    ∀ r ∈ b.macRules, r.Every fun f v => stage f = 2 ∧ b.Gives f v := by
  intro r hr
  obtain ⟨m, hm, rfl⟩ := List.mem_map.mp hr
  exact (Rule.every_empty.set ⟨rfl, .macExtension⟩).set ⟨rfl, .macSource hm⟩

end macs

theorem forwardRules_ne_nil (b : ParameterBag) : b.forwardRules ≠ [] :=
  Rule.product_ne_nil (Rule.product_ne_nil (Rule.product_ne_nil (by simp) _) _) _

/-- The rules up to a stage use the flags up to it, and give them what the bag gives. -/
theorem every_product_stage {b : ParameterBag} {left right : List Rule} {n : Nat}
    (hl : ∀ r ∈ left, r.Every fun f v => stage f < n ∧ b.Gives f v)
    (hr : ∀ r ∈ right, r.Every fun f v => stage f = n ∧ b.Gives f v) :
    ∀ r ∈ Rule.product left right, r.Every fun f v => stage f < n + 1 ∧ b.Gives f v :=
  Rule.forall_mem_product .merge
    (fun r h => (hl r h).mono fun _ _ hf => ⟨Nat.lt_succ_of_lt hf.1, hf.2⟩)
    (fun r h => (hr r h).mono fun _ _ hf => ⟨by omega, hf.2⟩)

theorem passes_product_stage {b : ParameterBag} {left right : List Rule} {n : Nat}
    (hl : ∀ r ∈ left, r.Every fun f v => stage f < n ∧ b.Gives f v)
    (hr : ∀ r ∈ right, r.Every fun f v => stage f = n ∧ b.Gives f v) (p : Packet) :
    Rule.Passes (Rule.product left right) p ↔ Rule.Passes left p ∧ Rule.Passes right p :=
  Rule.passes_product (fun r h s h' => (hl r h).apart (hr s h') fun _ _ _ hf hg => by omega) p

section forward

variable (b : ParameterBag)

theorem every_start :
    ∀ r ∈ [(∅ : Rule)], r.Every fun f v => stage f < 0 ∧ b.Gives f v := by
  simpa using Rule.every_empty

theorem every_networkProduct : ∀ r ∈ Rule.product [∅] b.networkRules,
    r.Every fun f v => stage f < 1 ∧ b.Gives f v :=
  every_product_stage b.every_start b.every_networkRules

theorem every_portProduct : ∀ r ∈ Rule.product (Rule.product [∅] b.networkRules) b.portRules,
    r.Every fun f v => stage f < 2 ∧ b.Gives f v :=
  every_product_stage b.every_networkProduct b.every_portRules

/-- The flags of the forward rules carry what the bag gives to them. -/
theorem every_forwardRules : ∀ r ∈ b.forwardRules, r.Every b.Gives := fun r hr =>
  (every_product_stage b.every_portProduct b.every_macRules r hr).mono fun _ _ hf => hf.2

/-- The forward rules of a bag match exactly the packets that it admits. -/
theorem exists_forwardRules_accepts (p : Packet) :
    (∃ r ∈ b.forwardRules, r.accepts p = true) ↔ b.Admits p := by
  rw [← Rule.passes_iff_exists b.forwardRules_ne_nil, forwardRules,
    passes_product_stage b.every_portProduct b.every_macRules,
    passes_product_stage b.every_networkProduct b.every_portRules,
    passes_product_stage b.every_start b.every_networkRules,
    Rule.passes_singleton, passes_networkRules, passes_portRules, passes_macRules]
  constructor
  · rintro ⟨⟨⟨-, hn⟩, hp⟩, hm⟩
    exact ⟨hn, hm, hp⟩
  · rintro ⟨hn, hm, hp⟩
    exact ⟨⟨⟨Rule.accepts_empty p, hn⟩, hp⟩, hm⟩

end forward

end ParameterBag

namespace RuleSet

variable (bag : ParameterBag) (priority : Option Priority) (download : Option UInt32)

@[simp] theorem upload_compile : (compile bag priority download).upload = bag.forwardRules := by
  unfold compile upload
  split <;> simp

theorem download_compile :
    (compile bag priority download).download = bag.forwardRules.map Rule.reversed := by
  rw [RuleSet.download, upload_compile]

theorem mem_properReverses {rules : List Rule} {r : Rule} :
    r ∈ Rule.properReverses rules ↔ ∃ s ∈ rules, s.reversed ≠ s ∧ s.reversed = r := by
  simp only [Rule.properReverses, List.mem_filterMap, ne_eq]
  constructor
  · rintro ⟨s, hs, h⟩
    split at h
    · contradiction
    · exact ⟨s, hs, ‹_›, Option.some.inj h⟩
  · rintro ⟨s, hs, hne, rfl⟩
    exact ⟨s, hs, by simp [hne]⟩

section every

variable {P : Rule → Prop}

/-- What holds of the rules of a bag, and of the reverse of a rule of which it holds, holds of every
compiled rule. -/
theorem forall_mem_compile {bag : ParameterBag} (hforward : ∀ r ∈ bag.forwardRules, P r)
    (hreversed : ∀ r, P r → P r.reversed) :
    ∀ r ∈ (compile bag priority download).rules, P r := by
  intro r hr
  unfold compile at hr
  split at hr
  · rcases List.mem_append.mp hr with hr | hr
    · exact hforward r hr
    · obtain ⟨s, hs, -, rfl⟩ := mem_properReverses.mp hr
      exact hreversed s (hforward s hs)
  · exact hforward r hr

variable {s : RuleSet} (h : ∀ r ∈ s.rules, P r)

include h

theorem forall_mem_upload : ∀ r ∈ s.upload, P r :=
  fun r hr => h r (List.mem_of_mem_take hr)

theorem forall_mem_download (hreversed : ∀ r, P r → P r.reversed) : ∀ r ∈ s.download, P r := by
  intro r hr
  obtain ⟨u, hu, rfl⟩ := List.mem_map.mp hr
  exact hreversed u (forall_mem_upload h u hu)

end every

/-- Rules with their proper reverses match a packet if the rules match it or its reverse. A rule
that is its own reverse is not repeated, and matches both or neither. -/
theorem exists_append_properReverses_accepts (rules : List Rule) (p : Packet) :
    (∃ r ∈ rules ++ Rule.properReverses rules, r.accepts p = true) ↔
      (∃ r ∈ rules, r.accepts p = true) ∨ ∃ r ∈ rules, r.accepts p.reversed = true := by
  constructor
  · rintro ⟨r, hr, ha⟩
    rcases List.mem_append.mp hr with hr | hr
    · exact .inl ⟨r, hr, ha⟩
    · obtain ⟨s, hs, -, rfl⟩ := mem_properReverses.mp hr
      exact .inr ⟨s, hs, by rwa [← Rule.accepts_reversed]⟩
  · rintro (⟨r, hr, ha⟩ | ⟨r, hr, ha⟩)
    · exact ⟨r, List.mem_append_left _ hr, ha⟩
    · rw [← Rule.accepts_reversed] at ha
      by_cases hself : r.reversed = r
      · exact ⟨r, List.mem_append_left _ hr, hself ▸ ha⟩
      · exact ⟨r.reversed, List.mem_append_right _ (mem_properReverses.mpr ⟨r, hr, hself, rfl⟩), ha⟩

theorem exists_compile_accepts (p : Packet) :
    (∃ r ∈ (compile bag priority download).rules, r.accepts p = true) ↔
      bag.Admits p ∨ (priority.isSome ∨ download.isSome) ∧ bag.Admits p.reversed := by
  simp only [compile, ← Bool.or_eq_true]
  split
  · rename_i h
    rw [exists_append_properReverses_accepts, bag.exists_forwardRules_accepts,
      bag.exists_forwardRules_accepts]
    simp [h]
  · rename_i h
    rw [bag.exists_forwardRules_accepts]
    simp [h]

/-- The leading rules of a compiled bag match the packets that the bag admits, and all its rules
those and, with a priority or a download cap, the packets whose reverse it admits. The empty bag
matches every packet. -/
theorem compile_matches_admitted (p : Packet) :
    ((∃ r ∈ (compile bag priority download).rules.take (compile bag priority download).forwardCount,
        r.accepts p = true) ↔ bag.Admits p) ∧
      ((∃ r ∈ (compile bag priority download).rules, r.accepts p = true) ↔
        bag.Admits p ∨ (priority.isSome ∨ download.isSome) ∧ bag.Admits p.reversed) ∧
      ∃ r ∈ (compile ∅ priority download).rules.take (compile ∅ priority download).forwardCount,
        r.accepts p = true := by
  have hupload : ∀ b : ParameterBag, (compile b priority download).rules.take
      (compile b priority download).forwardCount = b.forwardRules := fun b =>
    upload_compile b priority download
  rw [hupload, hupload]
  refine ⟨bag.exists_forwardRules_accepts p, exists_compile_accepts bag priority download p, ?_⟩
  exact (ParameterBag.exists_forwardRules_accepts ∅ p).mpr (ParameterBag.admits_empty p)

end RuleSet

end TrafficWarden
