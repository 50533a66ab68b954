import TrafficWarden.Rule.Compile
import TrafficWarden.Proofs.AddressText

/-!
# Packets, and the rules that match them

Each flag of a rule puts one question to a packet, and the rule matches when every answer is yes. A
list of rules is a stage of a filter: a packet passes it when the list is empty or one of its rules
matches. A product of stages whose rules share no flag is passed by what passes both.
-/

namespace TrafficWarden

/-- The number of a transport protocol in the header of a packet. -/
def Transport.number : Transport → UInt8
  | .tcp => 6
  | .udp => 17

def BothSides.swap {α : Type} (b : BothSides α) : BothSides α := ⟨b.destination, b.source⟩

/-- What a packet filter sees of a packet. The ports say nothing where the protocol has none. -/
structure Packet where
  mac : MacAddress
  protocol : UInt8
  addresses : BothSides Ipv4
  ports : BothSides UInt16
deriving DecidableEq, Repr

namespace Packet

/-- The packet with its two ends exchanged. -/
def reversed (p : Packet) : Packet :=
  { p with addresses := p.addresses.swap, ports := p.ports.swap }

@[simp] theorem reversed_reversed (p : Packet) : p.reversed.reversed = p := rfl

end Packet

/-- Whether an address agrees with one of the subnets that a text lists under the mask of that
subnet. -/
def Subnet.listCovers (text : String) (ip : Ipv4) : Bool :=
  (readList? text).any fun subnets =>
    subnets.any fun s => ip.toNat &&& s.mask == s.address.toNat &&& s.mask

/-- The question that a flag puts to a packet. A value of another kind is never matched. -/
def Flag.accepts : Flag → FlagValue → Packet → Bool
  | .macExtension, .marker, _ => true
  | .multiportExtension, .marker, _ => true
  | .protocol, .transport t, p => p.protocol == t.number
  | .macSource, .text s, p => MacAddress.read? s == some p.mac
  | .sourceIp, .text s, p => Subnet.listCovers s p.addresses.source
  | .destinationIp, .text s, p => Subnet.listCovers s p.addresses.destination
  | .sourcePort, .port n, p => p.ports.source == n
  | .destinationPort, .port n, p => p.ports.destination == n
  | _, _, _ => false

theorem Flag.accepts_swapped (f : Flag) (v : FlagValue) (p : Packet) :
    f.swapped.accepts v p = f.accepts v p.reversed := by
  cases f <;> cases v <;> rfl

namespace Rule

/-- Whether a packet matches every flag of a rule. -/
def accepts (r : Rule) (p : Packet) : Bool := r.toList.all fun (f, v) => f.accepts v p

theorem mem_toList {r : Rule} {f : Flag} {v : FlagValue} :
    (f, v) ∈ r.toList ↔ r.get f = some v := by
  simp only [toList, List.mem_filterMap, Option.map_eq_some_iff, Prod.mk.injEq]
  constructor
  · rintro ⟨g, -, w, hw, rfl, rfl⟩
    exact hw
  · intro h
    exact ⟨f, Flag.mem_all f, v, h, rfl, rfl⟩

theorem accepts_iff {r : Rule} {p : Packet} :
    r.accepts p = true ↔ ∀ f v, r.get f = some v → f.accepts v p = true := by
  simp only [accepts, List.all_eq_true, Prod.forall, mem_toList]

@[simp] theorem accepts_empty (p : Packet) : (∅ : Rule).accepts p = true := by
  simp [accepts_iff]

/-- Setting a flag adds its question. -/
theorem accepts_set {r : Rule} {f : Flag} (v : FlagValue) (p : Packet) (h : r.get f = none) :
    (r.set f v).accepts p = true ↔ f.accepts v p = true ∧ r.accepts p = true := by
  simp only [accepts_iff, get_set]
  constructor
  · intro hall
    refine ⟨hall f v (by simp), fun g w hg => hall g w ?_⟩
    have hne : g ≠ f := by
      rintro rfl
      simp [h] at hg
    simpa [hne] using hg
  · rintro ⟨hf, hr⟩ g w hg
    by_cases hgf : g = f
    · subst hgf
      obtain rfl : v = w := by simpa using hg
      exact hf
    · exact hr g w (by simpa [hgf] using hg)

/-- A reversed rule matches the packets whose reverse the rule matches. -/
@[simp] theorem accepts_reversed (r : Rule) (p : Packet) :
    r.reversed.accepts p = r.accepts p.reversed := by
  rw [Bool.eq_iff_iff, accepts_iff, accepts_iff]
  constructor
  · intro h f v hf
    rw [← Flag.accepts_swapped]
    exact h f.swapped v (by simpa using hf)
  · intro h f v hf
    rw [← Flag.swapped_swapped f, Flag.accepts_swapped]
    exact h f.swapped v hf

/-- Two rules that give no flag a value each. -/
def Apart (r s : Rule) : Prop := ∀ f, r.get f = none ∨ s.get f = none

theorem accepts_merge {r s : Rule} (h : r.Apart s) (p : Packet) :
    (r.merge s).accepts p = true ↔ r.accepts p = true ∧ s.accepts p = true := by
  simp only [accepts_iff, get_merge, Option.or_eq_some_iff]
  constructor
  · intro hall
    refine ⟨fun f v hf => hall f v (.inr ⟨?_, hf⟩), fun f v hf => hall f v (.inl hf)⟩
    rcases h f with hn | hn
    · simp [hn] at hf
    · exact hn
  · rintro ⟨hr, hs⟩ f v (hf | ⟨-, hf⟩)
    · exact hs f v hf
    · exact hr f v hf

/-- Whether a packet passes a stage. A stage without rules asks for nothing. -/
def Passes (rules : List Rule) (p : Packet) : Prop := rules = [] ∨ ∃ r ∈ rules, r.accepts p = true

@[simp] theorem passes_nil (p : Packet) : Passes [] p := .inl rfl

@[simp] theorem passes_singleton (r : Rule) (p : Packet) : Passes [r] p ↔ r.accepts p = true := by
  simp [Passes]

theorem passes_iff_exists {rules : List Rule} (h : rules ≠ []) (p : Packet) :
    Passes rules p ↔ ∃ r ∈ rules, r.accepts p = true := by
  simp [Passes, h]

theorem product_ne_nil {left : List Rule} (h : left ≠ []) (right : List Rule) :
    product left right ≠ [] := by
  cases right with
  | nil => simpa using h
  | cons s right =>
    obtain ⟨r, left, rfl⟩ := List.exists_cons_of_ne_nil h
    simp [product]

theorem product_eq_flatMap {left right : List Rule} (hl : left ≠ []) (hr : right ≠ []) :
    product left right = left.flatMap fun r => right.map r.merge := by
  simp [product, hl, hr]

theorem mem_product {left right : List Rule} (hl : left ≠ []) (hr : right ≠ []) {t : Rule} :
    t ∈ product left right ↔ ∃ r ∈ left, ∃ s ∈ right, r.merge s = t := by
  simp [product_eq_flatMap hl hr]

/-- What holds of the rules of two stages, and of what is merged from them, holds of the product. -/
theorem forall_mem_product {P : Rule → Prop} {left right : List Rule}
    (hmerge : ∀ {r s}, P r → P s → P (r.merge s)) (hl : ∀ r ∈ left, P r)
    (hr : ∀ s ∈ right, P s) : ∀ t ∈ product left right, P t := by
  intro t ht
  by_cases hleft : left = []
  · exact hr t (by simpa [hleft] using ht)
  by_cases hright : right = []
  · exact hl t (by simpa [hright] using ht)
  obtain ⟨r, hrl, s, hsr, rfl⟩ := (mem_product hleft hright).mp ht
  exact hmerge (hl r hrl) (hr s hsr)

/-- What passes a product of stages without a common flag is what passes both. -/
theorem passes_product {left right : List Rule}
    (h : ∀ r ∈ left, ∀ s ∈ right, r.Apart s) (p : Packet) :
    Passes (product left right) p ↔ Passes left p ∧ Passes right p := by
  by_cases hl : left = []
  · simp [hl]
  by_cases hr : right = []
  · simp [hr]
  rw [passes_iff_exists (product_ne_nil hl right), passes_iff_exists hl, passes_iff_exists hr]
  simp only [mem_product hl hr]
  constructor
  · rintro ⟨_, ⟨r, hrl, s, hsr, rfl⟩, hm⟩
    obtain ⟨hmr, hms⟩ := (accepts_merge (h r hrl s hsr) p).mp hm
    exact ⟨⟨r, hrl, hmr⟩, s, hsr, hms⟩
  · rintro ⟨⟨r, hrl, hmr⟩, s, hsr, hms⟩
    exact ⟨_, ⟨r, hrl, s, hsr, rfl⟩, (accepts_merge (h r hrl s hsr) p).mpr ⟨hmr, hms⟩⟩

/-- Every flag that a rule sets, with its value, is in a relation. -/
def Every (P : Flag → FlagValue → Prop) (r : Rule) : Prop := ∀ f v, r.get f = some v → P f v

variable {P Q : Flag → FlagValue → Prop}

theorem Every.mono {r : Rule} (h : r.Every P) (hPQ : ∀ f v, P f v → Q f v) : r.Every Q :=
  fun f v hf => hPQ f v (h f v hf)

theorem every_empty : (∅ : Rule).Every P := by
  intro f v h
  simp at h

theorem Every.set {r : Rule} (h : r.Every P) {f : Flag} {v : FlagValue} (hv : P f v) :
    (r.set f v).Every P := by
  intro g w hg
  rw [get_set] at hg
  split at hg
  · rename_i hgf
    subst hgf
    exact Option.some.inj hg ▸ hv
  · exact h g w hg

theorem Every.merge {r s : Rule} (hr : r.Every P) (hs : s.Every P) : (r.merge s).Every P := by
  intro f v hf
  rw [get_merge, Option.or_eq_some_iff] at hf
  rcases hf with hf | ⟨-, hf⟩
  · exact hs f v hf
  · exact hr f v hf

theorem Every.reversed {r : Rule} (h : r.Every P) (hP : ∀ f v, P f v → P f.swapped v) :
    r.reversed.Every P := by
  intro f v hf
  rw [get_reversed] at hf
  simpa using hP _ _ (h f.swapped v hf)

/-- Rules whose flags are never the same are apart. -/
theorem Every.apart {r s : Rule} (hr : r.Every P) (hs : s.Every Q)
    (h : ∀ f v w, P f v → ¬ Q f w) : r.Apart s := by
  intro f
  cases hf : r.get f with
  | none => exact .inl rfl
  | some v =>
    right
    cases hg : s.get f with
    | none => rfl
    | some w => exact absurd (hs f w hg) (h f v w (hr f v hf))

end Rule

end TrafficWarden
