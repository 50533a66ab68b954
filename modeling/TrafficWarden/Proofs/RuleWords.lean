import TrafficWarden.Proofs.CompiledRules
import Mathlib.Data.List.Basic

/-!
# Reading rules back from their words

The words of a rule on a command line are read flag by flag, each with its value. Every rule whose
flags carry values of their own kind is read back from its words, and the rules of a bag are such
rules.
-/

namespace TrafficWarden

namespace Text

/-- Reads a numeral with digits up to 15 in a base. -/
def readNumeral (base : Nat) (cs : List Char) : Option Nat :=
  if cs.isEmpty then none
  else cs.foldlM (fun value c => (hexValue? c).bind fun d =>
    if d < base then some (base * value + d) else none) 0

theorem hexValue?_digitChar {d : Nat} (h : d < 16) : hexValue? d.digitChar = some d := by
  have hall : ∀ n : Fin 16, hexValue? (Nat.digitChar n.val) = some n.val := by decide
  exact hall ⟨d, h⟩

/-- A number is read back from its digits. -/
theorem readNumeral_toDigits {base : Nat} (hlow : 1 < base) (hhigh : base ≤ 16) (n : Nat) :
    readNumeral base (Nat.toDigits base n) = some n := by
  rw [readNumeral, if_neg (by simp)]
  induction n using Nat.base_induction base hlow with
  | single m hm =>
    simp [Nat.toDigits_of_lt_base hm, hexValue?_digitChar (by omega : m < 16), hm]
  | digit m k hk hm ih =>
    rw [← Nat.toDigits_append_toDigits hlow hm hk, List.foldlM_append, ih,
      Nat.toDigits_of_lt_base hk]
    simp [hexValue?_digitChar (by omega : k < 16), hk]

end Text

def Transport.ofName? : String → Option Transport
  | "tcp" => some .tcp
  | "udp" => some .udp
  | _ => none

@[simp] theorem Transport.ofName?_name (t : Transport) : ofName? t.name = some t := by
  cases t <;> rfl

/-- Reads a port number in decimal digits. -/
def readPort (text : String) : Option UInt16 :=
  (Text.readNumeral 10 text.toList).bind fun n => if n < 65536 then some n.toUInt16 else none

@[simp] theorem readPort_repr (n : UInt16) : readPort n.toNat.repr = some n := by
  have := n.toNat_lt
  simp [readPort, Text.readNumeral_toDigits, this]

/-- The kind of value that belongs to a flag. -/
inductive Flag.Carries : Flag → FlagValue → Prop
  | macExtension : Carries .macExtension .marker
  | multiportExtension : Carries .multiportExtension .marker
  | protocol (t : Transport) : Carries .protocol (.transport t)
  | macSource (s : String) : Carries .macSource (.text s)
  | sourceIp (s : String) : Carries .sourceIp (.text s)
  | destinationIp (s : String) : Carries .destinationIp (.text s)
  | sourcePort (n : UInt16) : Carries .sourcePort (.port n)
  | destinationPort (n : UInt16) : Carries .destinationPort (.port n)

theorem Flag.Carries.swapped {f : Flag} {v : FlagValue} (h : f.Carries v) :
    f.swapped.Carries v := by
  cases h <;> constructor

namespace Rule

/-- The flags at the head of a command line, and the words after them. -/
def readFlags : List String → List (Flag × FlagValue) × List String
  | "-m" :: "mac" :: rest =>
    let (flags, rest) := readFlags rest
    ((.macExtension, .marker) :: flags, rest)
  | "-m" :: "multiport" :: rest =>
    let (flags, rest) := readFlags rest
    ((.multiportExtension, .marker) :: flags, rest)
  | "-p" :: name :: rest =>
    match Transport.ofName? name with
    | some t =>
      let (flags, rest) := readFlags rest
      ((.protocol, .transport t) :: flags, rest)
    | none => ([], "-p" :: name :: rest)
  | "--mac-source" :: s :: rest =>
    let (flags, rest) := readFlags rest
    ((.macSource, .text s) :: flags, rest)
  | "--source" :: s :: rest =>
    let (flags, rest) := readFlags rest
    ((.sourceIp, .text s) :: flags, rest)
  | "--destination" :: s :: rest =>
    let (flags, rest) := readFlags rest
    ((.destinationIp, .text s) :: flags, rest)
  | "--source-port" :: n :: rest =>
    match readPort n with
    | some n =>
      let (flags, rest) := readFlags rest
      ((.sourcePort, .port n) :: flags, rest)
    | none => ([], "--source-port" :: n :: rest)
  | "--destination-port" :: n :: rest =>
    match readPort n with
    | some n =>
      let (flags, rest) := readFlags rest
      ((.destinationPort, .port n) :: flags, rest)
    | none => ([], "--destination-port" :: n :: rest)
  | rest => ([], rest)

theorem readFlags_append {f : Flag} {v : FlagValue} (h : f.Carries v) (rest : List String) :
    readFlags (f.words ++ v.words ++ rest) =
      ((f, v) :: (readFlags rest).1, (readFlags rest).2) := by
  cases h with
  | protocol t => cases t <;> simp [Flag.words, FlagValue.words, FlagValue.argument, readFlags]
  | _ => simp [Flag.words, FlagValue.words, FlagValue.argument, readFlags]

/-- The flags of a rule are read back from its words, whatever follows that is no flag. -/
theorem readFlags_words {r : Rule} (h : r.Every Flag.Carries) {rest : List String}
    (hrest : readFlags rest = ([], rest)) : readFlags (r.words ++ rest) = (r.toList, rest) := by
  have hitems : ∀ items : List (Flag × FlagValue), (∀ f v, (f, v) ∈ items → f.Carries v) →
      readFlags ((items.flatMap fun item => item.1.words ++ item.2.words) ++ rest) =
        (items, rest) := by
    intro items
    induction items with
    | nil => simpa using hrest
    | cons item items ih =>
      obtain ⟨f, v⟩ := item
      intro hall
      have htail := ih fun g w hg => hall g w (List.mem_cons_of_mem _ hg)
      rw [List.flatMap_cons, List.append_assoc, readFlags_append (hall f v List.mem_cons_self), htail]
  exact hitems r.toList fun f v hf => h f v (mem_toList.mp hf)

end Rule

namespace ParameterBag

theorem Gives.carries {b : ParameterBag} {f : Flag} {v : FlagValue} (h : b.Gives f v) :
    f.Carries v := by
  cases h <;> constructor

theorem carries_forwardRules (b : ParameterBag) : ∀ r ∈ b.forwardRules, r.Every Flag.Carries :=
  fun r hr => (b.every_forwardRules r hr).mono fun _ _ => Gives.carries

end ParameterBag

end TrafficWarden
