import TrafficWarden.Plan
import TrafficWarden.Proofs.PortRules

/-!
# Rules that the packet filter takes

The packet filter reads the words of a rule in order. It refuses a port unless the protocol came
before, a MAC address unless the extension for it came before, and values of a wrong kind. No rule
of a bag and no reverse of one is refused.
-/

namespace TrafficWarden

section lists

variable {α β : Type}

theorem mem_of_mem_intercalate {sep : List α} {pieces : List (List α)} {a : α}
    (h : a ∈ sep.intercalate pieces) : a ∈ sep ∨ ∃ piece ∈ pieces, a ∈ piece := by
  induction pieces with
  | nil => exact absurd h List.not_mem_nil
  | cons piece pieces ih =>
    cases pieces with
    | nil => exact .inr ⟨piece, List.mem_cons_self, by simpa using h⟩
    | cons next pieces =>
      rw [List.intercalate_cons_cons, List.mem_append, List.mem_append] at h
      rcases h with (h | h) | h
      · exact .inr ⟨piece, List.mem_cons_self, h⟩
      · exact .inl h
      · exact (ih h).imp_right fun ⟨p, hp, ha⟩ => ⟨p, List.mem_cons_of_mem _ hp, ha⟩

theorem intercalate_ne_nil {sep : List α} {pieces : List (List α)} {piece : List α}
    (hpiece : piece ∈ pieces) (hne : piece ≠ []) : sep.intercalate pieces ≠ [] := by
  induction pieces with
  | nil => exact absurd hpiece List.not_mem_nil
  | cons first pieces ih =>
    cases pieces with
    | nil =>
      rw [List.mem_singleton.mp hpiece] at hne
      simpa using hne
    | cons next pieces =>
      rw [List.intercalate_cons_cons]
      rcases List.mem_cons.mp hpiece with rfl | hpiece
      · simp [hne]
      · simp [ih hpiece]

/-- A place in the joined outputs of some items lies in the output of one of them, after the outputs
of the items before it. -/
theorem exists_item_of_flatMap {f : α → List β} {items : List α} {before after : List β} {b : β}
    (h : items.flatMap f = before ++ b :: after) :
    ∃ first a last, items = first ++ a :: last ∧ b ∈ f a ∧ first.flatMap f <+: before := by
  induction items generalizing before with
  | nil => simp at h
  | cons a items ih =>
    rw [List.flatMap_cons] at h
    rcases List.append_eq_append_iff.mp h with ⟨more, rfl, hmore⟩ | ⟨rest, hrest, hafter⟩
    · obtain ⟨first, x, last, rfl, hx, hprefix⟩ := ih hmore
      refine ⟨a :: first, x, last, rfl, hx, ?_⟩
      rwa [List.flatMap_cons, List.prefix_append_right_inj]
    · cases rest with
      | nil =>
        -- the place is at the start of what the later items give
        have hstart : items.flatMap f = [] ++ b :: after := hafter.symm
        obtain ⟨first, x, last, rfl, hx, hprefix⟩ := ih hstart
        have hbefore : (a :: first).flatMap f = before := by
          rw [List.flatMap_cons, List.prefix_nil.mp hprefix, hrest, List.append_nil,
            List.append_nil]
        exact ⟨a :: first, x, last, rfl, hx, hbefore ▸ List.prefix_rfl⟩
      | cons c rest =>
        obtain rfl : b = c := (List.cons.inj hafter).1
        exact ⟨[], a, items, rfl, by simp [hrest], List.nil_prefix⟩

end lists

/-- Six pairs of small hexadecimal digits with colons between them. -/
def MacAddress.IsText (s : String) : Prop :=
  ∃ pairs : List (List Char), pairs.length = 6 ∧
    (∀ pair ∈ pairs, pair.length = 2 ∧ ∀ c ∈ pair, c ∈ "0123456789abcdef".toList) ∧
      s.toList = [':'].intercalate pairs

theorem MacAddress.isText_text (m : MacAddress) : IsText m.text := by
  have hdigit : ∀ d : Fin 16, hexDigit d ∈ "0123456789abcdef".toList := by decide
  refine ⟨m.octets, rfl, fun pair hpair => ?_, ?_⟩
  · obtain ⟨o, rfl⟩ := mem_octets hpair
    have hlt := o.toNat_lt
    refine ⟨rfl, fun c hc => ?_⟩
    simp only [octetChars, List.mem_cons, List.not_mem_nil, or_false] at hc
    rcases hc with rfl | rfl
    · exact hdigit ⟨o.toNat / 16, by omega⟩
    · exact hdigit ⟨o.toNat % 16, by omega⟩
  · rw [text, String.toList_ofList, chars_eq_intercalate]

namespace Subnet

/-- The order of subnets, by address and then by length. -/
def Before (s t : Subnet) : Prop :=
  s.address.toNat < t.address.toNat ∨ s.address.toNat = t.address.toNat ∧ s.length < t.length

/-- One subnet or more in increasing order, with commas between them. -/
def IsList (list : String) : Prop :=
  ∃ subnets : List Subnet, subnets ≠ [] ∧ subnets.Pairwise Before ∧
    list = ",".intercalate (subnets.map text)

theorem before_of_rank_lt {s t : Subnet} (h : Ranked.rank s < Ranked.rank t) : s.Before t := by
  have hs := s.length_le
  have ht := t.length_le
  have hlt : s.address.toNat * 64 + s.length < t.address.toNat * 64 + t.length :=
    Int.ofNat_lt.mp h
  unfold Before
  omega

theorem isList_toList {subnets : OrderedSet Subnet} (h : subnets ≠ ∅) :
    IsList (",".intercalate (subnets.toList.map text)) :=
  ⟨subnets.toList, fun hnil => h (OrderedSet.toList_eq_nil.mp hnil),
    subnets.increasing.imp before_of_rank_lt, rfl⟩

end Subnet

/-- The values that the packet filter takes for a flag. -/
inductive Flag.Suits : Flag → FlagValue → Prop
  | macExtension : Suits .macExtension .marker
  | protocol (t : Transport) : Suits .protocol (.transport t)
  | macSource {s : String} (h : MacAddress.IsText s) : Suits .macSource (.text s)
  | sourceIp {s : String} (h : Subnet.IsList s) : Suits .sourceIp (.text s)
  | destinationIp {s : String} (h : Subnet.IsList s) : Suits .destinationIp (.text s)
  | sourcePort (n : UInt16) : Suits .sourcePort (.port n)
  | destinationPort (n : UInt16) : Suits .destinationPort (.port n)

namespace Flag

theorem Suits.swapped {f : Flag} {v : FlagValue} (h : f.Suits v) : f.swapped.Suits v := by
  cases h with
  | macExtension => exact .macExtension
  | protocol t => exact .protocol t
  | macSource h => exact .macSource h
  | sourceIp h => exact .destinationIp h
  | destinationIp h => exact .sourceIp h
  | sourcePort n => exact .destinationPort n
  | destinationPort n => exact .sourcePort n

/-- The characters in the words of a value. -/
theorem Suits.cases_of_mem {f : Flag} {v : FlagValue} (h : f.Suits v) {word : String}
    (hword : word ∈ v.words) {c : Char} (hc : c ∈ word.toList) :
    c.isDigit = true ∨ c ∈ "abcdefptu.,/:".toList := by
  have hport : ∀ n : UInt16, c ∈ (toString n.toNat).toList → c.isDigit = true := by
    intro n hn
    rw [Nat.toString_eq_repr, Nat.repr, String.toList_ofList] at hn
    exact Nat.isDigit_of_mem_toDigits (by decide) (by decide) hn
  have hlist : ∀ s, Subnet.IsList s → c ∈ s.toList →
      c.isDigit = true ∨ c ∈ "abcdefptu.,/:".toList := by
    rintro _ ⟨subnets, -, -, rfl⟩ hmem
    rw [String.toList_intercalate, List.map_map] at hmem
    rcases mem_of_mem_intercalate hmem with hcomma | ⟨piece, hpiece, hmem⟩
    · rw [List.mem_singleton.mp hcomma]
      decide
    · obtain ⟨s, -, rfl⟩ := List.mem_map.mp hpiece
      rcases Subnet.cases_of_mem_text hmem with hdigit | rfl | rfl
      · exact .inl hdigit
      · decide
      · decide
  cases h with
  | macExtension => exact absurd hword List.not_mem_nil
  | protocol t =>
    have hname : ∀ t : Transport, t.name.toList ⊆ "abcdefptu.,/:".toList := by
      intro t
      cases t <;> decide
    rw [List.mem_singleton.mp hword] at hc
    exact .inr (hname t hc)
  | macSource h =>
    obtain ⟨pairs, -, hpairs, htext⟩ := h
    rw [List.mem_singleton.mp hword, FlagValue.argument, htext] at hc
    rcases mem_of_mem_intercalate hc with hcolon | ⟨pair, hpair, hc⟩
    · rw [List.mem_singleton.mp hcolon]
      decide
    · have hhex : ∀ c ∈ "0123456789abcdef".toList,
          c.isDigit = true ∨ c ∈ "abcdefptu.,/:".toList := by simp
      exact hhex c ((hpairs pair hpair).2 c hc)
  | sourceIp h | destinationIp h =>
    rw [List.mem_singleton.mp hword] at hc
    exact hlist _ h hc
  | sourcePort n | destinationPort n =>
    rw [List.mem_singleton.mp hword] at hc
    exact .inl (hport n hc)

/-- No word of a value is taken for a flag. -/
theorem Suits.dash_not_mem {f : Flag} {v : FlagValue} (h : f.Suits v) {word : String}
    (hword : word ∈ v.words) : '-' ∉ word.toList :=
  fun hdash => absurd (h.cases_of_mem hword hdash) (by decide)

theorem Suits.space_not_mem {f : Flag} {v : FlagValue} (h : f.Suits v) {word : String}
    (hword : word ∈ v.words) : ' ' ∉ word.toList :=
  fun hspace => absurd (h.cases_of_mem hword hspace) (by decide)

/-- The place of a flag on a command line. -/
def rank (f : Flag) : Nat := all.idxOf f

theorem pairwise_rank_all : all.Pairwise fun f g => f.rank < g.rank := by decide

end Flag

theorem ParameterBag.Gives.suits {b : ParameterBag} {f : Flag} {v : FlagValue} (h : b.Gives f v) :
    f.Suits v := by
  cases h with
  | macExtension => exact .macExtension
  | macSource h => exact .macSource (MacAddress.isText_text _)
  | sourceIp h => exact .sourceIp (Subnet.isList_toList h)
  | destinationIp h => exact .destinationIp (Subnet.isList_toList h)
  | protocol t => exact .protocol t
  | sourcePort h => exact .sourcePort _
  | destinationPort h => exact .destinationPort _

namespace Rule

@[simp] theorem contains_merge (r s : Rule) (f : Flag) :
    (r.merge s).contains f = (r.contains f || s.contains f) := by
  rw [contains, get_merge, Option.isSome_or, Bool.or_comm]
  rfl

theorem contains_eq_false {r : Rule} {P : Flag → FlagValue → Prop} (h : r.Every P) {f : Flag}
    (hf : ∀ v, ¬ P f v) : r.contains f = false := by
  rw [contains, Option.isSome_eq_false_iff, Option.isNone_iff_eq_none]
  exact Option.eq_none_iff_forall_ne_some.mpr fun v hv => hf v (h f v hv)

/-- The flags of a rule belong together and carry values that suit them. -/
structure WellFormed (r : Rule) : Prop where
  protocol : r.contains .protocol = true ↔
    r.contains .sourcePort = true ∨ r.contains .destinationPort = true
  mac : r.contains .macSource = true ↔ r.contains .macExtension = true
  multiport : r.contains .multiportExtension = false
  values : r.Every Flag.Suits

theorem wellFormed_empty : (∅ : Rule).WellFormed where
  protocol := by simp [contains]
  mac := by simp [contains]
  multiport := rfl
  values := every_empty

theorem WellFormed.merge {r s : Rule} (hr : r.WellFormed) (hs : s.WellFormed) :
    (r.merge s).WellFormed where
  protocol := by
    simp only [contains_merge, Bool.or_eq_true, hr.protocol, hs.protocol]
    exact or_or_or_comm
  mac := by simp only [contains_merge, Bool.or_eq_true, hr.mac, hs.mac]
  multiport := by simp only [contains_merge, hr.multiport, hs.multiport, Bool.or_false]
  values := hr.values.merge hs.values

theorem WellFormed.reversed {r : Rule} (h : r.WellFormed) : r.reversed.WellFormed where
  protocol := h.protocol.trans or_comm
  mac := h.mac
  multiport := h.multiport
  values := h.values.reversed fun _ _ => Flag.Suits.swapped

/-- A rule that the packet filter takes: besides, its words come in an order in which each is
understood. -/
structure Acceptable (r : Rule) : Prop extends r.WellFormed where
  port_after_protocol : ∀ word ∈ ["--source-port", "--destination-port"], ∀ before after,
    r.words = before ++ word :: after → ∃ t : Transport, ["-p", t.name] <:+: before
  mac_after_extension : ∀ before after,
    r.words = before ++ "--mac-source" :: after → ["-m", "mac"] <:+: before

section words

variable {r : Rule}

theorem toList_increasing (r : Rule) : r.toList.Pairwise fun a b => a.1.rank < b.1.rank := by
  refine Flag.pairwise_rank_all.filterMap _ fun f g hfg a ha b hb => ?_
  obtain ⟨v, -, rfl⟩ := Option.map_eq_some_iff.mp ha
  obtain ⟨w, -, rfl⟩ := Option.map_eq_some_iff.mp hb
  exact hfg

/-- The words of a flag stand before every word of a flag with a higher rank. -/
theorem words_infix_of_rank_lt {f g : Flag} {v : FlagValue} (hf : r.get f = some v)
    (hfg : f.rank < g.rank) {before after : List String} {word : String}
    (hword : ∀ h w, r.get h = some w → word ∈ h.words ++ w.words → h = g)
    (hsplit : r.words = before ++ word :: after) : f.words ++ v.words <:+: before := by
  obtain ⟨first, ⟨h, w⟩, last, hlist, hmem, hprefix⟩ := exists_item_of_flatMap hsplit
  have hget : r.get h = some w := mem_toList.mp (by simp [hlist])
  obtain rfl : h = g := hword h w hget hmem
  have hincreasing := hlist ▸ r.toList_increasing
  rw [List.pairwise_append, List.pairwise_cons] at hincreasing
  have hfirst : (f, v) ∈ first := by
    have hall : (f, v) ∈ first ++ (h, w) :: last := hlist ▸ mem_toList.mpr hf
    rcases List.mem_append.mp hall with hall | hall
    · exact hall
    · rcases List.mem_cons.mp hall with heq | hlast
      · rw [(Prod.mk.inj heq).1] at hfg
        exact absurd hfg (Nat.lt_irrefl _)
      · exact absurd (hincreasing.2.1.1 _ hlast) (Nat.lt_asymm hfg)
  obtain ⟨a, b, rfl⟩ := List.append_of_mem hfirst
  refine .trans ?_ hprefix.isInfix
  rw [List.flatMap_append, List.flatMap_cons, ← List.append_assoc]
  exact List.infix_append _ _ _

/-- A word with a dash is a word of a flag and of no value. -/
theorem WellFormed.mem_words (h : r.WellFormed) {word : String} (hdash : '-' ∈ word.toList)
    {f : Flag} {v : FlagValue} (hf : r.get f = some v) (hword : word ∈ f.words ++ v.words) :
    word ∈ f.words :=
  (List.mem_append.mp hword).resolve_right fun hv => (h.values f v hf).dash_not_mem hv hdash

theorem WellFormed.eq_of_mem_words (h : r.WellFormed) {word : String} (hdash : '-' ∈ word.toList)
    {g : Flag} (hword : ∀ f : Flag, word ∈ f.words → f = g) (f : Flag) (v : FlagValue)
    (hf : r.get f = some v) (hmem : word ∈ f.words ++ v.words) : f = g :=
  hword f (h.mem_words hdash hf hmem)

theorem contains_iff_exists {f : Flag} : r.contains f = true ↔ ∃ v, r.get f = some v :=
  Option.isSome_iff_exists

/-- A flag is set when a word that only it has stands on the command line. -/
theorem contains_of_words {g : Flag} {before after : List String} {word : String}
    (hword : ∀ h w, r.get h = some w → word ∈ h.words ++ w.words → h = g)
    (hsplit : r.words = before ++ word :: after) : r.contains g = true := by
  obtain ⟨first, ⟨h, w⟩, last, hlist, hmem, -⟩ := exists_item_of_flatMap hsplit
  have hget : r.get h = some w := mem_toList.mp (by simp [hlist])
  exact contains_iff_exists.mpr ⟨w, hword h w hget hmem ▸ hget⟩

theorem WellFormed.acceptable (h : r.WellFormed) : r.Acceptable where
  toWellFormed := h
  port_after_protocol word hword before after hsplit := by
    have hport : ∃ g : Flag, (g = .sourcePort ∨ g = .destinationPort) ∧
        ∀ f v, r.get f = some v → word ∈ f.words ++ v.words → f = g := by
      simp only [List.mem_cons, List.not_mem_nil, or_false] at hword
      rcases hword with rfl | rfl
      · exact ⟨.sourcePort, .inl rfl, h.eq_of_mem_words (by decide) fun f => by cases f <;> decide⟩
      · exact ⟨.destinationPort, .inr rfl,
          h.eq_of_mem_words (by decide) fun f => by cases f <;> decide⟩
    obtain ⟨g, hg, honly⟩ := hport
    have hset := contains_of_words honly hsplit
    have hprotocol : r.contains .protocol = true := by
      rw [h.protocol]
      rcases hg with rfl | rfl
      exacts [.inl hset, .inr hset]
    have hrank : Flag.rank .protocol < g.rank := by rcases hg with rfl | rfl <;> decide
    obtain ⟨v, hv⟩ := contains_iff_exists.mp hprotocol
    cases h.values _ v hv with
    | protocol t => exact ⟨t, words_infix_of_rank_lt hv hrank honly hsplit⟩
  mac_after_extension before after hsplit := by
    have honly : ∀ f v, r.get f = some v → "--mac-source" ∈ f.words ++ v.words →
        f = .macSource := h.eq_of_mem_words (by decide) fun f => by cases f <;> decide
    obtain ⟨v, hv⟩ := contains_iff_exists.mp (h.mac.mp (contains_of_words honly hsplit))
    cases h.values _ v hv with
    | macExtension => exact words_infix_of_rank_lt hv (by decide) honly hsplit

end words

end Rule

namespace ParameterBag

variable {b : ParameterBag}

/-- Rules that give their flags what a bag gives are well formed if their flags belong together. -/
theorem wellFormed_of_gives {r : Rule} (hgives : r.Every b.Gives)
    (hprotocol : r.contains .protocol = true ↔
      r.contains .sourcePort = true ∨ r.contains .destinationPort = true)
    (hmac : r.contains .macSource = true ↔ r.contains .macExtension = true) : r.WellFormed where
  protocol := hprotocol
  mac := hmac
  multiport := Rule.contains_eq_false hgives fun v h => by cases h
  values := hgives.mono fun _ _ => Gives.suits

variable (b)

theorem wellFormed_networkRules : ∀ r ∈ b.networkRules, r.WellFormed := by
  intro r hr
  have hevery := b.every_networkRules r hr
  have hnot : ∀ f, stage f ≠ 0 → r.contains f = false := fun f hf =>
    Rule.contains_eq_false hevery fun _ h => hf h.1
  refine wellFormed_of_gives (hevery.mono fun _ _ h => h.2) ?_ ?_
  · simp [hnot .protocol (by decide), hnot .sourcePort (by decide),
      hnot .destinationPort (by decide)]
  · simp [hnot .macSource (by decide), hnot .macExtension (by decide)]

theorem contains_protocol_iff {t : Transport} {ports : BothSides (OrderedSet UInt16)} {r : Rule}
    (h : r ∈ transportRules t ports) : r.contains .protocol = true ↔
      r.contains .sourcePort = true ∨ r.contains .destinationPort = true := by
  rw [transportRules_eq] at h
  obtain ⟨choice, hchoice, rfl⟩ := List.mem_map.mp h
  simpa [Rule.contains, get_portRule] using portPairs_isSome hchoice

theorem wellFormed_portRules : ∀ r ∈ b.portRules, r.WellFormed := by
  intro r hr
  have hevery := b.every_portRules r hr
  have hnot : ∀ f, stage f ≠ 1 → r.contains f = false := fun f hf =>
    Rule.contains_eq_false hevery fun _ h => hf h.1
  refine wellFormed_of_gives (hevery.mono fun _ _ h => h.2) ?_ ?_
  · rcases List.mem_append.mp hr with hr | hr
    exacts [contains_protocol_iff hr, contains_protocol_iff hr]
  · simp [hnot .macSource (by decide), hnot .macExtension (by decide)]

theorem wellFormed_macRules : ∀ r ∈ b.macRules, r.WellFormed := by
  intro r hr
  have hevery := b.every_macRules r hr
  obtain ⟨m, -, rfl⟩ := List.mem_map.mp hr
  exact wellFormed_of_gives (hevery.mono fun _ _ h => h.2) (by simp [Rule.contains])
    (by simp [Rule.contains])

theorem wellFormed_forwardRules : ∀ r ∈ b.forwardRules, r.WellFormed := by
  have hstart : ∀ r ∈ [∅], Rule.WellFormed r :=
    List.forall_mem_singleton.mpr Rule.wellFormed_empty
  have hnetworks := Rule.forall_mem_product .merge hstart b.wellFormed_networkRules
  have hports := Rule.forall_mem_product .merge hnetworks b.wellFormed_portRules
  exact Rule.forall_mem_product .merge hports b.wellFormed_macRules

end ParameterBag

namespace RuleSet

theorem wellFormed_compile (bag : ParameterBag) (priority : Option Priority)
    (download : Option UInt32) : ∀ r ∈ (compile bag priority download).rules, r.WellFormed :=
  forall_mem_compile priority download bag.wellFormed_forwardRules fun _ => Rule.WellFormed.reversed

/-- The packet filter takes every rule that is compiled from a bag, and every rule for upload or
download of a policy. -/
theorem compiled_rules_acceptable (bag : ParameterBag) :
    (∀ priority download, ∀ r ∈ (compile bag priority download).rules, r.Acceptable) ∧
      ∀ policy, ∀ r ∈ (CompiledPolicy.compile policy bag).rules.upload ++
        (CompiledPolicy.compile policy bag).rules.download, r.Acceptable := by
  refine ⟨fun priority download r hr => (wellFormed_compile bag priority download r hr).acceptable,
    fun policy r hr => ?_⟩
  have hrules := wellFormed_compile bag policy.priority policy.download
  rcases List.mem_append.mp hr with hr | hr
  · exact (forall_mem_upload hrules r hr).acceptable
  · exact (forall_mem_download hrules (fun _ => Rule.WellFormed.reversed) r hr).acceptable

/-- A bag with a MAC address, two subnets of the source and a TCP port of the destination. -/
def printerBag : ParameterBag where
  macs := .ofList [⟨0, 17, 34, 170, 187, 204⟩]
  networks := ⟨.ofList [⟨⟨192, 168, 1, 0⟩, 24, by decide⟩, ⟨⟨10, 0, 0, 0⟩, 8, by decide⟩], ∅⟩
  tcpPorts := ⟨∅, .ofList [631]⟩
  udpPorts := ⟨∅, ∅⟩

/-- The rule of the bag for the other direction. -/
def printerReply : Rule :=
  .ofList [(.macExtension, .marker), (.protocol, .transport .tcp),
    (.macSource, .text "00:11:22:aa:bb:cc"), (.destinationIp, .text "10.0.0.0/8,192.168.1.0/24"),
    (.sourcePort, .port 631)]

theorem compiled_rules_acceptable_of_reply :
    let policy : Policy := ⟨⟨1⟩, "printer", none, true, none, none, some 512, []⟩
    let s := compile printerBag none (some 512)
    printerReply ∈ s.rules ∧
      printerReply ∈ (CompiledPolicy.compile policy printerBag).rules.upload ++
        (CompiledPolicy.compile policy printerBag).rules.download ∧
      printerReply.Acceptable := by
  intro policy s
  have hcompiled : printerReply ∈ s.rules := by decide +kernel
  have hinstalled : printerReply ∈ (CompiledPolicy.compile policy printerBag).rules.upload ++
      (CompiledPolicy.compile policy printerBag).rules.download := by decide +kernel
  exact ⟨hcompiled, hinstalled, (compiled_rules_acceptable printerBag).2 policy _ hinstalled⟩

end RuleSet

end TrafficWarden
