import TrafficWarden.Proofs.RuleCounts
import Mathlib.Data.Multiset.Bind

/-!
# Bags with their sides exchanged

Reversing the rules of a bag gives the rules of the bag with its sides exchanged, in another order.
Each stage of the compilation is exchanged on its own, and a product of stages is reversed by
reversing both of them.
-/

namespace TrafficWarden

theorem Flag.swapped_eq_iff {f g : Flag} : f.swapped = g ↔ f = g.swapped :=
  ⟨fun h => by rw [← h, swapped_swapped], fun h => by rw [h, swapped_swapped]⟩

namespace Rule

@[simp] theorem reversed_empty : (∅ : Rule).reversed = ∅ := rfl

theorem reversed_set (r : Rule) (f : Flag) (v : FlagValue) :
    (r.set f v).reversed = r.reversed.set f.swapped v :=
  ext_get fun g => by simp only [get_reversed, get_set, Flag.swapped_eq_iff]

theorem set_comm {f g : Flag} (h : f ≠ g) (r : Rule) (v w : FlagValue) :
    (r.set f v).set g w = (r.set g w).set f v :=
  ext_get fun k => by
    simp only [get_set]
    by_cases hf : k = f
    · rw [if_neg fun hg => h (hf.symm.trans hg), if_pos hf, if_pos hf]
    · rw [if_neg hf, if_neg hf]

theorem reversed_merge (r s : Rule) : (r.merge s).reversed = r.reversed.merge s.reversed := rfl

/-- A product of stages is reversed stage by stage, in the same order. -/
theorem map_reversed_product (left right : List Rule) :
    (product left right).map reversed = product (left.map reversed) (right.map reversed) := by
  simp only [product, List.isEmpty_map]
  split
  · rfl
  split
  · rfl
  simp only [List.map_flatMap, List.flatMap_map, List.map_map, Function.comp_def, reversed_merge]

theorem product_perm {left left' right right' : List Rule} (hl : left.Perm left')
    (hr : right.Perm right') : (product left right).Perm (product left' right') := by
  simp only [product, hl.isEmpty_eq, hr.isEmpty_eq]
  split
  · exact hr
  split
  · exact hl
  exact hl.flatMap fun r _ => hr.map r.merge

end Rule

namespace ParameterBag

/-- The bag with the source side and the destination side exchanged. -/
def swap (b : ParameterBag) : ParameterBag where
  macs := b.macs
  networks := b.networks.swap
  tcpPorts := b.tcpPorts.swap
  udpPorts := b.udpPorts.swap

section networks

theorem reversed_setSubnets (f : Flag) (subnets : OrderedSet Subnet) (r : Rule) :
    (setSubnets f subnets r).reversed = setSubnets f.swapped subnets r.reversed := by
  unfold setSubnets
  split
  · rfl
  · exact Rule.reversed_set r f (subnetList subnets)

theorem setSubnets_comm {f g : Flag} (h : f ≠ g) (s t : OrderedSet Subnet) (r : Rule) :
    setSubnets g t (setSubnets f s r) = setSubnets f s (setSubnets g t r) := by
  unfold setSubnets
  split
  · rfl
  split
  · rfl
  exact Rule.set_comm h r (subnetList s) (subnetList t)

theorem map_reversed_networkRules (b : ParameterBag) :
    b.networkRules.map Rule.reversed = b.swap.networkRules := by
  have hnetworks : b.swap.hasNetworks = b.hasNetworks := congrArg not (Bool.and_comm _ _)
  unfold networkRules
  rw [hnetworks]
  split
  · rw [List.map_singleton, reversed_setSubnets, reversed_setSubnets,
      setSubnets_comm (f := Flag.swapped .sourceIp) (by decide)]
    rfl
  · rfl

end networks

section ports

theorem reversed_portRule (t : Transport) (choice : Option UInt16 × Option UInt16) :
    (portRule t choice).reversed = portRule t choice.swap :=
  Rule.ext_get fun f => by
    rw [Rule.get_reversed, get_portRule, get_portRule]
    cases f <;> rfl

/-- Exchanging the sides exchanges the choices, and lists the pairs in another order. -/
theorem portPairs_swap (ports : BothSides (OrderedSet UInt16)) :
    ((portPairs ports).map Prod.swap).Perm (portPairs ports.swap) := by
  have hproduct : ∀ l m : List (Option UInt16), ((l ×ˢ m).map Prod.swap).Perm (m ×ˢ l) := by
    intro l m
    have h := Multiset.map_swap_product (Multiset.ofList l) (Multiset.ofList m)
    rwa [Multiset.coe_product, Multiset.map_coe, Multiset.coe_product, Multiset.coe_eq_coe] at h
  have hopen : (ports.swap.source.isEmpty && ports.swap.destination.isEmpty) =
      (ports.source.isEmpty && ports.destination.isEmpty) := Bool.and_comm _ _
  unfold portPairs
  rw [hopen]
  split
  · exact .refl []
  · exact hproduct _ _

theorem map_reversed_transportRules (t : Transport) (ports : BothSides (OrderedSet UInt16)) :
    ((transportRules t ports).map Rule.reversed).Perm (transportRules t ports.swap) := by
  have hreversed : (transportRules t ports).map Rule.reversed =
      ((portPairs ports).map Prod.swap).map (portRule t) := by
    rw [transportRules_eq, List.map_map, List.map_map]
    exact List.map_congr_left fun choice _ => reversed_portRule t choice
  rw [hreversed, transportRules_eq]
  exact (portPairs_swap ports).map (portRule t)

theorem map_reversed_portRules (b : ParameterBag) :
    (b.portRules.map Rule.reversed).Perm b.swap.portRules := by
  rw [portRules, List.map_append]
  exact (map_reversed_transportRules .tcp b.tcpPorts).append
    (map_reversed_transportRules .udp b.udpPorts)

end ports

/-- A rule for a MAC address says nothing of the two sides. -/
theorem map_reversed_macRules (b : ParameterBag) :
    b.macRules.map Rule.reversed = b.swap.macRules := by
  rw [macRules, List.map_map]
  refine List.map_congr_left fun m _ => ?_
  rw [Function.comp_apply, Rule.reversed_set, Rule.reversed_set, Rule.reversed_empty]
  rfl

/-- The reverses of the rules of a bag are the rules of the bag with its sides exchanged, in another
order. -/
theorem map_reversed_forwardRules (b : ParameterBag) :
    (b.forwardRules.map Rule.reversed).Perm b.swap.forwardRules := by
  rw [forwardRules, Rule.map_reversed_product, Rule.map_reversed_product, Rule.map_reversed_product,
    map_reversed_networkRules, map_reversed_macRules]
  exact Rule.product_perm (Rule.product_perm (.refl _) b.map_reversed_portRules) (.refl _)

theorem mem_forwardRules_swap {b : ParameterBag} {r : Rule} :
    r ∈ b.swap.forwardRules ↔ r.reversed ∈ b.forwardRules := by
  rw [← b.map_reversed_forwardRules.mem_iff, List.mem_map_of_involutive Rule.reversed_involutive]

end ParameterBag

namespace RuleSet

variable (bag : ParameterBag) (priority : Option Priority) (download : Option UInt32)

/-- The reverses of the rules of a bag are, in another order, the rules of the bag with its sides
exchanged. With a priority or a download cap both bags compile to the same set of rules. -/
theorem compile_swap :
    let originals (b : ParameterBag) :=
      (compile b priority download).rules.take (compile b priority download).forwardCount
    ((originals bag).map Rule.reversed).Perm (originals bag.swap) ∧
      (priority.isSome ∨ download.isSome → ∀ r,
        r ∈ (compile bag priority download).rules ↔
          r ∈ (compile bag.swap priority download).rules) := by
  intro originals
  have horiginals : originals = ParameterBag.forwardRules :=
    funext fun b => upload_compile b priority download
  refine ⟨?_, fun h r => ?_⟩
  · rw [horiginals]
    exact bag.map_reversed_forwardRules
  · rw [mem_rules_compile, mem_rules_compile, ParameterBag.mem_forwardRules_swap,
      ParameterBag.mem_forwardRules_swap, Rule.reversed_reversed, and_iff_right h, and_iff_right h]
    exact or_comm

/-- A subnet of the destination, and two TCP ports on either side. -/
def mailBag : ParameterBag where
  macs := ∅
  networks := ⟨∅, .ofList [⟨⟨172, 16, 0, 0⟩, 12, by decide⟩]⟩
  tcpPorts := ⟨.ofList [25, 587], .ofList [25, 465]⟩
  udpPorts := ⟨∅, ∅⟩

/-- The rules of the two bags come in different orders, and one of them for the reply is in both. -/
theorem compile_swap_of_mail :
    let originals (b : ParameterBag) :=
      (compile b none (some 512)).rules.take (compile b none (some 512)).forwardCount
    let reply :=
      (ParameterBag.portRule .tcp (some 465, some 587)).set .sourceIp (.text "172.16.0.0/12")
    (originals mailBag).map Rule.reversed ≠ originals mailBag.swap ∧
      ((originals mailBag).map Rule.reversed).Perm (originals mailBag.swap) ∧
      reply ∈ (compile mailBag none (some 512)).rules ∧
      reply ∈ (compile mailBag.swap none (some 512)).rules := by
  intro originals reply
  have hreply : reply ∈ (compile mailBag none (some 512)).rules := by decide +kernel
  obtain ⟨hperm, hsame⟩ := compile_swap mailBag none (some 512)
  exact ⟨by decide +kernel, hperm, hreply, (hsame (.inr rfl) reply).mp hreply⟩

end RuleSet

end TrafficWarden
