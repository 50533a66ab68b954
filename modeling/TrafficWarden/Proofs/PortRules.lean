import TrafficWarden.Proofs.CompiledRules
import Mathlib.Data.List.ProdSigma
import Mathlib.Data.List.Nodup

/-!
# Rules for ports, by choices of ports

A side that has ports offers the choice of one of them, and a side without ports leaves its port
open. The rules for the ports of a protocol are its pairs of choices in row order, unless both sides
leave their port open.
-/

namespace TrafficWarden.ParameterBag

/-- Gives a flag the port that is chosen, if one is. -/
def setPort (f : Flag) : Option UInt16 → Rule → Rule
  | none, r => r
  | some n, r => r.set f (.port n)

/-- The rule of a protocol for a choice of source port and of destination port. -/
def portRule (t : Transport) (choice : Option UInt16 × Option UInt16) : Rule :=
  setPort .destinationPort choice.2
    (setPort .sourcePort choice.1 ((∅ : Rule).set .protocol (.transport t)))

/-- The choices that a side offers. -/
def portChoices (ports : OrderedSet UInt16) : List (Option UInt16) :=
  if ports.isEmpty then [none] else ports.toList.map some

/-- The choices of both sides, in row order. -/
def portPairs (ports : BothSides (OrderedSet UInt16)) : List (Option UInt16 × Option UInt16) :=
  if ports.source.isEmpty && ports.destination.isEmpty then []
  else portChoices ports.source ×ˢ portChoices ports.destination

theorem transportRules_eq (t : Transport) (ports : BothSides (OrderedSet UInt16)) :
    transportRules t ports = (portPairs ports).map (portRule t) := by
  obtain ⟨⟨sources, _⟩, ⟨destinations, _⟩⟩ := ports
  cases sources <;> cases destinations <;>
    simp [transportRules, portPairs, portChoices, OrderedSet.isEmpty, portRule, setPort,
      SProd.sprod, List.product, List.map_flatMap, List.flatMap_map, ← List.map_eq_flatMap,
      Function.comp_def]

section rule

variable (t : Transport) (choice : Option UInt16 × Option UInt16)

@[simp] theorem get_setPort (f g : Flag) (port : Option UInt16) (r : Rule) :
    (setPort f port r).get g = if g = f then (port.map .port).or (r.get g) else r.get g := by
  cases port <;> simp [setPort]

/-- A port rule names its protocol and the ports that are chosen, and nothing else. -/
theorem get_portRule (f : Flag) :
    (portRule t choice).get f = match f with
      | .protocol => some (.transport t)
      | .sourcePort => choice.1.map .port
      | .destinationPort => choice.2.map .port
      | _ => none := by
  cases f <;> simp [portRule]

theorem portRule_injective : Function.Injective (portRule t) := by
  intro choice other h
  have hport : Function.Injective FlagValue.port := fun _ _ h => FlagValue.port.inj h
  have hget : ∀ f, (portRule t choice).get f = (portRule t other).get f := fun f => by rw [h]
  have hsource := hget .sourcePort
  have hdestination := hget .destinationPort
  rw [get_portRule, get_portRule] at hsource hdestination
  exact Prod.ext (Option.map_injective hport hsource) (Option.map_injective hport hdestination)

end rule

theorem none_mem_portChoices {ports : OrderedSet UInt16} :
    none ∈ portChoices ports ↔ ports = ∅ := by
  unfold portChoices
  split
  · rename_i h
    simpa using h
  · rename_i h
    simpa using h

/-- A pair of choices never leaves both ports open. -/
theorem portPairs_isSome {ports : BothSides (OrderedSet UInt16)}
    {choice : Option UInt16 × Option UInt16} (h : choice ∈ portPairs ports) :
    choice.1.isSome = true ∨ choice.2.isSome = true := by
  unfold portPairs at h
  split at h
  · exact absurd h List.not_mem_nil
  · rename_i hports
    obtain ⟨source, destination⟩ := choice
    rw [List.mem_product] at h
    by_contra hopen
    simp only [Option.isSome_iff_ne_none, ne_eq, not_or, not_not] at hopen
    obtain ⟨rfl, rfl⟩ := hopen
    rw [none_mem_portChoices, none_mem_portChoices] at h
    simp [h.1, h.2] at hports

/-- The rules for ports name their protocol. -/
theorem get_protocol_of_mem {t : Transport} {ports : BothSides (OrderedSet UInt16)} {r : Rule}
    (h : r ∈ transportRules t ports) : r.get .protocol = some (.transport t) := by
  rw [transportRules_eq] at h
  obtain ⟨choice, -, rfl⟩ := List.mem_map.mp h
  exact get_portRule t choice .protocol

end TrafficWarden.ParameterBag
