import TrafficWarden.Proofs.ReversedBags
import TrafficWarden.Proofs.RuleDecoding

/-!
# Reversed rules

To reverse a rule is to take the flags of its two sides out and to put their values back at the
other flag of each pair. It undoes itself, goes through a merge, and keeps the number of flags. The
rules that it leaves as they are have the same on both sides.
-/

namespace TrafficWarden

namespace Flag

/-- The flags for a source, each with the flag for the destination. -/
def sidePairs : List (Flag × Flag) := [(sourceIp, destinationIp), (sourcePort, destinationPort)]

theorem swapped_eq_self_iff {f : Flag} :
    f.swapped = f ↔ f ∉ [sourceIp, destinationIp, sourcePort, destinationPort] := by
  cases f <;> decide

theorem map_swapped_all : (all.map swapped).Perm all := by decide

end Flag

namespace Rule

section exchange

/-- Sets a flag to a value, if there is one. -/
def give (r : Rule) (f : Flag) : Option FlagValue → Rule
  | none => r
  | some v => r.set f v

@[simp] theorem get_give (r : Rule) (f g : Flag) (v : Option FlagValue) :
    (r.give f v).get g = if g = f then v.or (r.get g) else r.get g := by
  cases v <;> simp [give]

/-- A rule without the flags of its sides. -/
def withoutSides (r : Rule) : Rule :=
  Flag.sidePairs.foldl (fun s (f, g) => (s.erase f).erase g) r

theorem get_withoutSides (r : Rule) (f : Flag) :
    r.withoutSides.get f = if f.swapped = f then r.get f else none := by
  cases f <;> rfl

/-- A rule with the flags of its sides taken out, and then their values put back pair by pair, each
at the other flag. A flag without a value gives none to the other. -/
def exchanged (r : Rule) : Rule :=
  Flag.sidePairs.foldl (fun s (f, g) => (s.give g (r.get f)).give f (r.get g)) r.withoutSides

theorem reversed_eq_exchanged (r : Rule) : r.reversed = r.exchanged := by
  apply ext_get
  intro f
  rw [get_reversed]
  cases f <;> simp [exchanged, Flag.sidePairs, get_withoutSides, Flag.swapped]

end exchange

variable (r : Rule)

theorem get_reversed_of_not_mem {f : Flag}
    (h : f ∉ [Flag.sourceIp, .destinationIp, .sourcePort, .destinationPort]) :
    r.reversed.get f = r.get f := by
  rw [get_reversed, Flag.swapped_eq_self_iff.mpr h]

theorem size_eq_countP : r.size = Flag.all.countP r.contains := by
  rw [List.countP_eq_length_filter, ← r.map_fst_toList, List.length_map]
  rfl

/-- The flags of a reversed rule are those of the rule, swapped. -/
theorem size_reversed : r.reversed.size = r.size := by
  calc r.reversed.size
      = Flag.all.countP (r.contains ∘ Flag.swapped) := r.reversed.size_eq_countP
    _ = (Flag.all.map Flag.swapped).countP r.contains := List.countP_map.symm
    _ = Flag.all.countP r.contains := Flag.map_swapped_all.countP_eq _
    _ = r.size := r.size_eq_countP.symm

theorem reversed_eq_self_iff : r.reversed = r ↔
    r.get .sourceIp = r.get .destinationIp ∧ r.get .sourcePort = r.get .destinationPort := by
  constructor
  · intro h
    have hget : ∀ f, r.get f = r.get f.swapped := fun f => by rw [← get_reversed, h]
    exact ⟨hget .sourceIp, hget .sourcePort⟩
  · rintro ⟨hip, hport⟩
    apply ext_get
    intro f
    rw [get_reversed]
    cases f with
    | sourceIp => exact hip.symm
    | destinationIp => exact hip
    | sourcePort => exact hport.symm
    | destinationPort => exact hport
    | macExtension | protocol | multiportExtension | macSource => rfl

/-- Reversing exchanges what a rule has for its sides. Done twice it changes nothing, and of a
merge it makes the merge of the reverses. A reverse has as many flags as the rule, and no other
value for a flag that belongs to neither side. A rule is its own reverse if and only if it has the
same on both sides: the same addresses, or none, and the same ports, or none. -/
theorem reversal_laws (s : Rule) :
    r.reversed = r.exchanged ∧ r.reversed.reversed = r ∧
      (r.merge s).reversed = r.reversed.merge s.reversed ∧
      r.reversed.size = r.size ∧
      (∀ f, f ∉ [Flag.sourceIp, .destinationIp, .sourcePort, .destinationPort] →
        r.reversed.get f = r.get f) ∧
      (r.reversed = r ↔
        r.get .sourceIp = r.get .destinationIp ∧ r.get .sourcePort = r.get .destinationPort) :=
  ⟨r.reversed_eq_exchanged, r.reversed_reversed, reversed_merge r s, r.size_reversed,
    fun _ => r.get_reversed_of_not_mem, r.reversed_eq_self_iff⟩

/-- The rule for requests from a subnet to a TCP port. -/
def webRequests : Rule :=
  ofList [(.sourceIp, .text "10.0.0.0/8"), (.destinationPort, .port 80),
    (.protocol, .transport .tcp)]

/-- Answers come from the port and go to the subnet, with the protocol of the requests. -/
theorem reversal_laws_of_web_requests :
    webRequests.reversed = ofList [(.protocol, .transport .tcp),
        (.destinationIp, .text "10.0.0.0/8"), (.sourcePort, .port 80)] ∧
      webRequests.reversed.size = 3 ∧
      Flag.protocol ∉ [Flag.sourceIp, .destinationIp, .sourcePort, .destinationPort] ∧
      webRequests.reversed.get .protocol = some (.transport .tcp) ∧
      webRequests.reversed ≠ webRequests := by
  obtain ⟨hexchanged, -, -, hsize, hkeeps, hself⟩ := reversal_laws webRequests ∅
  refine ⟨hexchanged.trans (by decide +kernel), hsize.trans (by decide +kernel), by decide,
    (hkeeps .protocol (by decide)).trans (by decide +kernel), fun h => ?_⟩
  exact absurd (hself.mp h).1 (by decide +kernel)

end Rule

end TrafficWarden
