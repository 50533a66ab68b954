import TrafficWarden.Proofs.AddressSpelling
import TrafficWarden.Proofs.PortRules

/-!
# How many rules a bag has

The rules of a bag are as many as it has MAC addresses times as many as it has choices of ports, and
no two are the same. The reverses after them are no two the same either, so a compiled rule stands
there twice at most: once for itself, and once as the reverse of another rule of the bag.
-/

namespace TrafficWarden

namespace OrderedSet

variable {α : Type} [Ranked α]

def size (s : OrderedSet α) : Nat := s.toList.length

theorem nodup_toList (s : OrderedSet α) : s.toList.Nodup :=
  s.increasing.imp fun h heq => absurd (heq ▸ h) (Int.lt_irrefl _)

theorem size_eq_zero {s : OrderedSet α} : s.size = 0 ↔ s = ∅ := by
  rw [size, List.length_eq_zero_iff, toList_eq_nil]

end OrderedSet

/-- The pairs of ports of two sides that both have ports, and else the ports of either side. -/
def BothSides.portCount (ports : BothSides (OrderedSet UInt16)) : Nat :=
  if ports.source ≠ ∅ ∧ ports.destination ≠ ∅ then ports.source.size * ports.destination.size
  else ports.source.size + ports.destination.size

namespace Rule

theorem length_product {left : List Rule} (h : left ≠ []) (right : List Rule) :
    (product left right).length = left.length * max 1 right.length := by
  cases right with
  | nil => simp
  | cons s right =>
    rw [product_eq_flatMap h (List.cons_ne_nil s right), List.length_flatMap]
    simp

/-- Rules that set different flags are told apart in what they are merged to. -/
theorem merge_inj {P : Flag → Prop} {r r' s s' : Rule} (hr : r.Every fun f _ => P f)
    (hr' : r'.Every fun f _ => P f) (hs : s.Every fun f _ => ¬ P f)
    (hs' : s'.Every fun f _ => ¬ P f) (h : r.merge s = r'.merge s') : r = r' ∧ s = s' := by
  have hunset : ∀ {Q : Flag → Prop} {t : Rule} {f : Flag}, (t.Every fun f _ => Q f) → ¬ Q f →
      t.get f = none := fun ht hf =>
    Option.eq_none_iff_forall_ne_some.mpr fun v hv => hf (ht _ v hv)
  have hget : ∀ f, (s.get f).or (r.get f) = (s'.get f).or (r'.get f) := fun f => by
    rw [← get_merge, h, get_merge]
  constructor
  · refine ext_get fun f => ?_
    by_cases hf : P f
    · simpa [hunset hs (not_not.mpr hf), hunset hs' (not_not.mpr hf)] using hget f
    · rw [hunset hr hf, hunset hr' hf]
  · refine ext_get fun f => ?_
    by_cases hf : P f
    · rw [hunset hs (not_not.mpr hf), hunset hs' (not_not.mpr hf)]
    · simpa [hunset hr hf, hunset hr' hf] using hget f

/-- No two rules of a product are the same, if its sides have no two the same and set different
flags. -/
theorem nodup_product {P : Flag → Prop} {left right : List Rule} (hleft : left.Nodup)
    (hright : right.Nodup) (hl : ∀ r ∈ left, r.Every fun f _ => P f)
    (hr : ∀ s ∈ right, s.Every fun f _ => ¬ P f) : (product left right).Nodup := by
  unfold product
  split
  · exact hright
  split
  · exact hleft
  have hpairs : left.flatMap (fun r => right.map r.merge) =
      (left ×ˢ right).map fun pair => pair.1.merge pair.2 := by
    simp [SProd.sprod, List.product, List.map_flatMap, Function.comp_def]
  rw [hpairs]
  refine (hleft.product hright).map_on fun ⟨r, s⟩ hpair ⟨r', s'⟩ hpair' h => ?_
  obtain ⟨hrl, hsr⟩ := List.mem_product.mp hpair
  obtain ⟨hrl', hsr'⟩ := List.mem_product.mp hpair'
  obtain ⟨rfl, rfl⟩ := merge_inj (hl r hrl) (hl r' hrl') (hr s hsr) (hr s' hsr') h
  rfl

theorem reversed_involutive : Function.Involutive reversed := reversed_reversed

theorem properReverses_eq (rules : List Rule) :
    properReverses rules = (rules.filter fun r => r.reversed ≠ r).map reversed := by
  rw [properReverses, ← List.filterMap_eq_map, List.filterMap_filter]
  refine List.filterMap_congr fun r _ => ?_
  by_cases h : r.reversed = r <;> simp [h]

theorem nodup_properReverses {rules : List Rule} (h : rules.Nodup) :
    (properReverses rules).Nodup := by
  rw [properReverses_eq]
  exact (h.filter _).map reversed_involutive.injective

end Rule

namespace ParameterBag

section counts

theorem length_portChoices (ports : OrderedSet UInt16) :
    (portChoices ports).length = max 1 ports.size := by
  unfold portChoices
  split
  · rename_i h
    rw [OrderedSet.isEmpty_iff] at h
    rw [h]
    rfl
  · rename_i h
    have hsize : ports.size ≠ 0 := fun hzero => h (by simpa using OrderedSet.size_eq_zero.mp hzero)
    rw [List.length_map, ← OrderedSet.size]
    omega

theorem length_portPairs (ports : BothSides (OrderedSet UInt16)) :
    (portPairs ports).length = ports.portCount := by
  have hzero : ∀ s : OrderedSet UInt16, s.isEmpty = true ↔ s.size = 0 := fun s => by
    rw [OrderedSet.isEmpty_iff, OrderedSet.size_eq_zero]
  rw [BothSides.portCount, portPairs]
  simp only [Bool.and_eq_true, hzero, ne_eq, ← OrderedSet.size_eq_zero]
  split
  · rename_i h
    simp [h.1, h.2]
  · rename_i h
    rw [List.length_product, length_portChoices, length_portChoices]
    split
    · rename_i hboth
      rw [Nat.max_eq_right (by omega), Nat.max_eq_right (by omega)]
    · rename_i hboth
      by_cases hsource : ports.source.size = 0
      · rw [hsource, Nat.max_eq_left (by omega), Nat.max_eq_right (by omega)]
        omega
      · rw [Nat.max_eq_right (by omega), Nat.max_eq_left (by omega)]
        omega

variable (b : ParameterBag)

theorem length_portRules :
    b.portRules.length = b.tcpPorts.portCount + b.udpPorts.portCount := by
  simp [portRules, transportRules_eq, length_portPairs]

theorem length_networkRules_le : b.networkRules.length ≤ 1 := by
  unfold networkRules
  split
  · exact Nat.le_refl 1
  · exact Nat.zero_le 1

theorem length_forwardRules : b.forwardRules.length =
    max 1 b.macs.size * max 1 (b.tcpPorts.portCount + b.udpPorts.portCount) := by
  have hstart : [(∅ : Rule)] ≠ [] := List.cons_ne_nil _ _
  have hnetworks := Rule.product_ne_nil hstart b.networkRules
  have hmacs : b.macRules.length = b.macs.size := List.length_map _
  have hone : max 1 b.networkRules.length = 1 := Nat.max_eq_left b.length_networkRules_le
  rw [forwardRules, Rule.length_product (Rule.product_ne_nil hnetworks b.portRules),
    Rule.length_product hnetworks, Rule.length_product hstart, hone, length_portRules, hmacs,
    List.length_singleton, Nat.one_mul, Nat.mul_comm]

end counts

section distinct

theorem nodup_portChoices (ports : OrderedSet UInt16) : (portChoices ports).Nodup := by
  unfold portChoices
  split
  · exact List.nodup_singleton none
  · exact ports.nodup_toList.map (Option.some_injective _)

theorem nodup_portPairs (ports : BothSides (OrderedSet UInt16)) : (portPairs ports).Nodup := by
  unfold portPairs
  split
  · exact List.nodup_nil
  · exact (nodup_portChoices _).product (nodup_portChoices _)

theorem nodup_transportRules (t : Transport) (ports : BothSides (OrderedSet UInt16)) :
    (transportRules t ports).Nodup := by
  rw [transportRules_eq]
  exact (nodup_portPairs ports).map (portRule_injective t)

variable (b : ParameterBag)

theorem nodup_networkRules : b.networkRules.Nodup := by
  unfold networkRules
  split
  · exact List.nodup_singleton _
  · exact List.nodup_nil

/-- The rules of TCP and of UDP differ in their protocol. -/
theorem nodup_portRules : b.portRules.Nodup := by
  refine (nodup_transportRules .tcp _).append (nodup_transportRules .udp _) fun r htcp hudp => ?_
  have h := (get_protocol_of_mem htcp).symm.trans (get_protocol_of_mem hudp)
  exact absurd h (by decide)

theorem nodup_macRules : b.macRules.Nodup := by
  refine b.macs.nodup_toList.map fun m m' h => ?_
  have hget := congrArg (Rule.get · .macSource) h
  exact MacAddress.text_injective (by simpa using hget)

/-- No two rules of a bag are the same: the stages set different flags. -/
theorem nodup_forwardRules : b.forwardRules.Nodup := by
  have hbelow : ∀ {n : Nat} {rules : List Rule},
      (∀ r ∈ rules, r.Every fun f v => stage f < n ∧ b.Gives f v) →
        ∀ r ∈ rules, r.Every fun f _ => stage f < n :=
    fun h r hr => (h r hr).mono fun _ _ hf => hf.1
  have hat : ∀ {n : Nat} {rules : List Rule},
      (∀ r ∈ rules, r.Every fun f v => stage f = n ∧ b.Gives f v) →
        ∀ r ∈ rules, r.Every fun f _ => ¬ stage f < n :=
    fun h r hr => (h r hr).mono fun _ _ hf => by omega
  have hnetworks : (Rule.product [∅] b.networkRules).Nodup :=
    Rule.nodup_product (List.nodup_singleton _) b.nodup_networkRules (hbelow b.every_start)
      (hat b.every_networkRules)
  have hports : (Rule.product (Rule.product [∅] b.networkRules) b.portRules).Nodup :=
    Rule.nodup_product hnetworks b.nodup_portRules (hbelow b.every_networkProduct)
      (hat b.every_portRules)
  exact Rule.nodup_product hports b.nodup_macRules (hbelow b.every_portProduct)
    (hat b.every_macRules)

end distinct

end ParameterBag

namespace RuleSet

section compiled

variable (bag : ParameterBag) (priority : Option Priority) (download : Option UInt32)

@[simp] theorem forwardCount_compile :
    (compile bag priority download).forwardCount = bag.forwardRules.length := by
  unfold compile
  split <;> rfl

theorem rules_compile : (compile bag priority download).rules =
    bag.forwardRules ++
      if priority.isSome ∨ download.isSome then Rule.properReverses bag.forwardRules else [] := by
  simp only [compile, ← Bool.or_eq_true]
  split
  · rfl
  · rw [List.append_nil]

theorem drop_rules_compile :
    (compile bag priority download).rules.drop (compile bag priority download).forwardCount =
      if priority.isSome ∨ download.isSome then
        (bag.forwardRules.filter fun r => r.reversed ≠ r).map Rule.reversed else [] := by
  rw [forwardCount_compile, rules_compile, List.drop_left, Rule.properReverses_eq]

theorem nodup_drop_rules_compile :
    ((compile bag priority download).rules.drop
      (compile bag priority download).forwardCount).Nodup := by
  rw [drop_rules_compile, ← Rule.properReverses_eq]
  split
  · exact Rule.nodup_properReverses bag.nodup_forwardRules
  · exact List.nodup_nil

theorem mem_properReverses_iff {rules : List Rule} {r : Rule} :
    r ∈ Rule.properReverses rules ↔ r.reversed ≠ r ∧ r.reversed ∈ rules := by
  rw [Rule.properReverses_eq, List.mem_map_of_involutive Rule.reversed_involutive, List.mem_filter,
    decide_eq_true_eq, Rule.reversed_reversed, and_comm, ne_comm]

/-- The compiled rules are those of the bag, and with a priority or a download cap their reverses. A
rule that is its own reverse is there all the same. -/
theorem mem_rules_compile {r : Rule} :
    r ∈ (compile bag priority download).rules ↔ r ∈ bag.forwardRules ∨
      (priority.isSome ∨ download.isSome) ∧ r.reversed ∈ bag.forwardRules := by
  rw [rules_compile, List.mem_append, List.mem_ite_nil_right, mem_properReverses_iff]
  constructor
  · rintro (hr | ⟨h, -, hr⟩)
    exacts [.inl hr, .inr ⟨h, hr⟩]
  · rintro (hr | ⟨h, hr⟩)
    · exact .inl hr
    · by_cases hself : r.reversed = r
      · exact .inl (hself ▸ hr)
      · exact .inr ⟨h, hself, hr⟩

/-- A rule stands among some rules and their proper reverses once for each of the two. -/
theorem count_append_properReverses {rules : List Rule} (h : rules.Nodup) (r : Rule) :
    (rules ++ Rule.properReverses rules).count r =
      (if r ∈ rules then 1 else 0) + if r.reversed ≠ r ∧ r.reversed ∈ rules then 1 else 0 := by
  rw [List.count_append, h.count, (Rule.nodup_properReverses h).count]
  simp only [mem_properReverses_iff]

end compiled

/-- The rules of a bag come first, no two the same, as many as its MAC addresses times its choices
of ports. With a priority or a download cap the reverses of those that differ from their reverse
follow in the same order, again no two the same, and else nothing follows. A rule is there twice at
most, and it is there twice if reverses follow, it differs from its reverse, and both are rules of
the bag. -/
theorem shape_of_compile (bag : ParameterBag) (priority : Option Priority)
    (download : Option UInt32) :
    let s := compile bag priority download
    let originals := s.rules.take s.forwardCount
    s.forwardCount =
        max 1 bag.macs.size * max 1 (bag.tcpPorts.portCount + bag.udpPorts.portCount) ∧
      1 ≤ s.forwardCount ∧ originals.length = s.forwardCount ∧ originals.Nodup ∧
      (s.rules.drop s.forwardCount =
        if priority.isSome ∨ download.isSome then
          (originals.filter fun r => r.reversed ≠ r).map Rule.reversed else []) ∧
      (s.rules.drop s.forwardCount).Nodup ∧
      ∀ r, s.rules.count r ≤ 2 ∧
        (s.rules.count r = 2 ↔ (priority.isSome ∨ download.isSome) ∧
          r ∈ originals ∧ r.reversed ≠ r ∧ r.reversed ∈ originals) := by
  intro s originals
  have horiginals : originals = bag.forwardRules := upload_compile bag priority download
  have hcount : s.forwardCount = bag.forwardRules.length :=
    forwardCount_compile bag priority download
  rw [horiginals, hcount]
  refine ⟨bag.length_forwardRules, List.length_pos_iff.mpr bag.forwardRules_ne_nil, rfl,
    bag.nodup_forwardRules, hcount ▸ drop_rules_compile bag priority download,
    hcount ▸ nodup_drop_rules_compile bag priority download, fun r => ?_⟩
  have hrules : s.rules = _ := rules_compile bag priority download
  rw [hrules]
  by_cases hmirrors : priority.isSome ∨ download.isSome
  · rw [if_pos hmirrors, count_append_properReverses bag.nodup_forwardRules]
    split <;> split <;> simp_all
  · have hone := List.nodup_iff_count_le_one.mp bag.nodup_forwardRules r
    rw [if_neg hmirrors, List.append_nil]
    exact ⟨by omega, fun htwo => by omega, fun h => absurd h.1 hmirrors⟩

/-- The two ports 1 and 2 on both sides of TCP. -/
def twoPorts : ParameterBag :=
  { (∅ : ParameterBag) with tcpPorts := ⟨.ofList [1, 2], .ofList [1, 2]⟩ }

/-- Without a priority and a download cap, a rule whose reverse is another rule of the bag is there
once. -/
theorem once_without_reverses :
    let s := compile twoPorts none none
    let originals := s.rules.take s.forwardCount
    let r := ParameterBag.portRule .tcp (some 1, some 2)
    s.rules.count r = 1 ∧
      ¬ (s.rules.count r = 2 ↔ r ∈ originals ∧ r.reversed ≠ r ∧ r.reversed ∈ originals) := by
  decide +kernel

end RuleSet

end TrafficWarden
