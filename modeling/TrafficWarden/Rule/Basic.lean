/-!
# Packet filter rules

A rule gives some of the eight match flags a value. A packet matches a rule when it matches every
flag; the rule without flags matches every packet.
-/

namespace TrafficWarden

/-- The match flags, in the order in which the packet filter expects them. -/
inductive Flag where
  | macExtension
  | protocol
  | multiportExtension
  | macSource
  | sourceIp
  | destinationIp
  | sourcePort
  | destinationPort
deriving DecidableEq, Repr

namespace Flag

def all : List Flag :=
  [macExtension, protocol, multiportExtension, macSource, sourceIp, destinationIp, sourcePort,
    destinationPort]

theorem mem_all (f : Flag) : f ∈ all := by cases f <;> decide

/-- The words of a flag on the command line of the packet filter. -/
def words : Flag → List String
  | macExtension => ["-m", "mac"]
  | protocol => ["-p"]
  | multiportExtension => ["-m", "multiport"]
  | macSource => ["--mac-source"]
  | sourceIp => ["--source"]
  | destinationIp => ["--destination"]
  | sourcePort => ["--source-port"]
  | destinationPort => ["--destination-port"]

def token (f : Flag) : String := " ".intercalate f.words

/-- The flag for the other direction of a flow. -/
def swapped : Flag → Flag
  | sourceIp => destinationIp
  | destinationIp => sourceIp
  | sourcePort => destinationPort
  | destinationPort => sourcePort
  | f => f

@[simp] theorem swapped_swapped (f : Flag) : f.swapped.swapped = f := by cases f <;> rfl

end Flag

inductive Transport where
  | tcp
  | udp
deriving DecidableEq, Repr

def Transport.name : Transport → String
  | tcp => "tcp"
  | udp => "udp"

/-- What a flag is set to. A marker has no argument. -/
inductive FlagValue where
  | marker
  | text (s : String)
  | transport (t : Transport)
  | port (n : UInt16)
deriving DecidableEq, Repr

namespace FlagValue

def argument : FlagValue → String
  | marker => ""
  | text s => s
  | transport t => t.name
  | port n => toString n.toNat

/-- The words that follow the flag. -/
def words : FlagValue → List String
  | marker => []
  | v => [v.argument]

end FlagValue

/-- A rule, as the values of its flags. -/
structure Rule where
  get : Flag → Option FlagValue

namespace Rule

theorem ext_get {r s : Rule} (h : ∀ f, r.get f = s.get f) : r = s :=
  congrArg Rule.mk (funext h)

instance : DecidableEq Rule := fun r s =>
  decidable_of_iff (∀ f ∈ Flag.all, r.get f = s.get f)
    ⟨fun h => ext_get fun f => h f (Flag.mem_all f), fun h _ _ => h ▸ rfl⟩

def empty : Rule := ⟨fun _ => none⟩

instance : EmptyCollection Rule := ⟨empty⟩
instance : Inhabited Rule := ⟨empty⟩

def contains (r : Rule) (f : Flag) : Bool := (r.get f).isSome

def set (r : Rule) (f : Flag) (v : FlagValue) : Rule := ⟨fun g => if g = f then some v else r.get g⟩

def erase (r : Rule) (f : Flag) : Rule := ⟨fun g => if g = f then none else r.get g⟩

/-- The flags that are set, in order, with their values. -/
def toList (r : Rule) : List (Flag × FlagValue) :=
  Flag.all.filterMap fun f => (r.get f).map (f, ·)

def ofList (items : List (Flag × FlagValue)) : Rule := items.foldl (fun r (f, v) => r.set f v) ∅

def size (r : Rule) : Nat := r.toList.length

/-- The flags of both rules, with the values of the second where both have one. -/
def merge (r s : Rule) : Rule := ⟨fun f => (s.get f).or (r.get f)⟩

/-- The rule for the other direction of a flow: source and destination change places. -/
def reversed (r : Rule) : Rule := ⟨fun f => r.get f.swapped⟩

/-- The words of a rule on the command line of the packet filter. -/
def words (r : Rule) : List String := r.toList.flatMap fun (f, v) => f.words ++ v.words

def text (r : Rule) : String := " ".intercalate r.words

@[simp] theorem get_empty (f : Flag) : (∅ : Rule).get f = none := rfl

@[simp] theorem get_set (r : Rule) (f g : Flag) (v : FlagValue) :
    (r.set f v).get g = if g = f then some v else r.get g := rfl

@[simp] theorem get_erase (r : Rule) (f g : Flag) :
    (r.erase f).get g = if g = f then none else r.get g := rfl

@[simp] theorem get_merge (r s : Rule) (f : Flag) :
    (r.merge s).get f = (s.get f).or (r.get f) := rfl

@[simp] theorem get_reversed (r : Rule) (f : Flag) : r.reversed.get f = r.get f.swapped := rfl

@[simp] theorem reversed_reversed (r : Rule) : r.reversed.reversed = r := ext_get fun f => by simp

@[simp] theorem merge_empty (r : Rule) : r.merge ∅ = r := ext_get fun f => by simp

@[simp] theorem empty_merge (r : Rule) : merge ∅ r = r := ext_get fun f => by simp

theorem merge_assoc (r s t : Rule) : (r.merge s).merge t = r.merge (s.merge t) :=
  ext_get fun f => by simp [Option.or_assoc]

/-- Every rule of the first list merged with every rule of the second, in row order. An empty
list changes nothing. -/
def product (left right : List Rule) : List Rule :=
  if left.isEmpty then right
  else if right.isEmpty then left
  else left.flatMap fun r => right.map r.merge

@[simp] theorem product_nil (left : List Rule) : product left [] = left := by
  cases left <;> rfl

@[simp] theorem nil_product (right : List Rule) : product [] right = right := rfl

end Rule

end TrafficWarden
