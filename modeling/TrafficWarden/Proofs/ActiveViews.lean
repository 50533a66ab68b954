import Mathlib.Data.List.DropRight
import TrafficWarden.Command.Run
import TrafficWarden.Proofs.CompiledRules
import TrafficWarden.Proofs.ParameterJoin
import TrafficWarden.Proofs.PolicyVerdicts
import TrafficWarden.Proofs.RuleWords
import TrafficWarden.Proofs.StoreViews

/-!
# Identities and headings

Identities are read back from their texts, and the headings of a script tell the places and the
identities of its policies. In the store of a catalog, nothing refers to what is not there.
-/

namespace TrafficWarden

open Calendar

section identities

namespace EntityId

/-- Reads an identity as it is written. -/
def read? : List Char → Option EntityId
  | '-' :: digits => (Text.readNumeral 10 digits).map fun (n : Nat) => ⟨-n⟩
  | digits => (Text.readNumeral 10 digits).map fun (n : Nat) => ⟨n⟩

theorem isDigit_of_mem_repr {n : Nat} {c : Char} (h : c ∈ n.repr.toList) : c.isDigit = true := by
  rw [Nat.repr, String.toList_ofList] at h
  exact Nat.isDigit_of_mem_toDigits (by decide) (by decide) h

theorem readNumeral_repr (n : Nat) : Text.readNumeral 10 n.repr.toList = some n := by
  rw [Nat.repr, String.toList_ofList, Text.readNumeral_toDigits (by decide) (by decide)]

@[simp] theorem read?_text (id : EntityId) : read? id.text.toList = some id := by
  obtain ⟨value⟩ := id
  rw [text, Int.toString_eq_repr]
  cases value with
  | ofNat n =>
    have hread : read? n.repr.toList =
        (Text.readNumeral 10 n.repr.toList).map fun (n : Nat) => ⟨n⟩ := by
      unfold read?
      split
      · rename_i digits hdigits
        have hmem : '-' ∈ n.repr.toList := by simp [hdigits]
        exact absurd (isDigit_of_mem_repr hmem) (by decide)
      · rfl
    rw [Int.repr, hread, readNumeral_repr]
    rfl
  | negSucc n =>
    have hchars : ("-" ++ n.succ.repr).toList = '-' :: n.succ.repr.toList := by simp
    rw [Int.repr, hchars, read?, readNumeral_repr]
    rfl

theorem not_mem_text {c : Char} (hc : c.isDigit = false) (hdash : c ≠ '-') (id : EntityId) :
    c ∉ id.text.toList := by
  have hdigits : ∀ n : Nat, c ∉ n.repr.toList := fun n h =>
    absurd ((isDigit_of_mem_repr h).symm.trans hc) (by decide)
  rw [text, Int.toString_eq_repr]
  cases id.value with
  | ofNat n => exact hdigits n
  | negSucc n =>
    rw [Int.repr, String.toList_append, List.mem_append, not_or]
    exact ⟨by simpa using hdash, hdigits n.succ⟩

theorem space_not_mem_text (id : EntityId) : ' ' ∉ id.text.toList :=
  id.not_mem_text (by decide) (by decide)

end EntityId

end identities

theorem RuleSet.compile_rules_ne_nil (b : ParameterBag) (priority : Option Priority)
    (download : Option UInt32) : (compile b priority download).rules ≠ [] := by
  unfold compile
  split
  · simp [b.forwardRules_ne_nil]
  · exact b.forwardRules_ne_nil

namespace Script

/-- Reads what follows the first word of a heading: a number up to a colon, and an identity between
the last blank and a closing bracket. -/
def readHeading (cs : List Char) : Option (EntityId × Nat) := do
  let place ← Text.readNumeral 10 (cs.takeWhile (· ≠ ':'))
  let id ← EntityId.read? (cs.dropLast.rtakeWhile (· ≠ ' '))
  return (id, place)

/-- Reads a text that begins as a heading. -/
def readTitle : List Char → Option (EntityId × Nat)
  | 'P' :: 'o' :: 'l' :: 'i' :: 'c' :: 'y' :: ' ' :: rest => readHeading rest
  | _ => none

/-- The identity and the number in the heading of a section. -/
def heading? : ScriptLine → Option (EntityId × Nat)
  | .comment text => readTitle text.toList
  | _ => none

/-- The headings of the sections of a script. -/
def headings (s : Script) : List (EntityId × Nat) := s.filterMap heading?

@[simp] theorem headings_append (s t : Script) : headings (s ++ t) = headings s ++ headings t :=
  List.filterMap_append

theorem headings_eq_nil {s : Script} (h : ∀ line ∈ s, heading? line = none) : headings s = [] :=
  List.filterMap_eq_nil_iff.mpr h

theorem headings_header (p : Plan) : headings (header p) = [] := by
  have hmoment : heading? (.comment ("Generated by netcop at " ++ p.moment.text ++
      ". Rewritten on every dispatch.")) = none := by
    simp [heading?, readTitle]
  refine headings_eq_nil fun line hline => ?_
  simp only [header, List.mem_cons, List.not_mem_nil, or_false] at hline
  rcases hline with rfl | rfl | rfl | rfl | rfl | rfl | rfl | rfl
  exacts [rfl, hmoment, rfl, rfl, rfl, rfl, rfl, rfl]

theorem headings_reset : headings reset = [] := by
  decide +kernel

theorem headings_policyCommands (place : Nat) (c : CompiledPolicy) :
    headings (policyCommands place c) = [] := by
  have hmust : ∀ {s : Script}, (∀ line ∈ s, ∃ words, line = .must words) → headings s = [] := by
    intro s h
    refine headings_eq_nil fun line hline => ?_
    obtain ⟨words, rfl⟩ := h line hline
    rfl
  have hshaping : ∀ device chain cap rules,
      headings (direction place device chain cap c.policy.priority rules) = [] := by
    intro device chain cap rules
    refine hmust fun line hline => ?_
    unfold direction at hline
    split at hline
    · exact absurd hline List.not_mem_nil
    · simp only [shaping, List.cons_append, List.mem_cons, List.mem_append, List.mem_map,
        List.not_mem_nil, or_false] at hline
      rcases hline with rfl | ⟨r, -, rfl⟩ | rfl
      exacts [⟨_, rfl⟩, ⟨_, rfl⟩, ⟨_, rfl⟩]
  unfold policyCommands
  split
  · refine hmust fun line hline => ?_
    obtain ⟨r, -, rfl⟩ := List.mem_map.mp hline
    exact ⟨_, rfl⟩
  · rw [headings_append, hshaping, hshaping]
    rfl

theorem takeWhile_ne_append_cons {a : Char} {cs : List Char} (h : a ∉ cs) (rest : List Char) :
    (cs ++ a :: rest).takeWhile (· ≠ a) = cs := by
  have hall : ∀ c ∈ cs, decide (c ≠ a) = true := fun c hc =>
    decide_eq_true fun heq => h (heq ▸ hc)
  rw [List.takeWhile_append_of_pos hall, List.takeWhile_cons_of_neg (by simp), List.append_nil]

theorem rtakeWhile_ne_append_cons {a : Char} {cs : List Char} (h : a ∉ cs) (front : List Char) :
    (front ++ a :: cs).rtakeWhile (· ≠ a) = cs := by
  rw [List.rtakeWhile, List.reverse_append, List.reverse_cons, List.append_assoc,
    List.singleton_append, takeWhile_ne_append_cons (by simpa using h), List.reverse_reverse]

/-- A heading is read back, whatever stands between the number and the identity. -/
theorem readHeading_append (place : Nat) (between : List Char) (id : EntityId) :
    readHeading (place.repr.toList ++ ':' :: between ++ ' ' :: id.text.toList ++ [')']) =
      some (id, place) := by
  have hplace : (place.repr.toList ++ ':' :: between ++ ' ' :: id.text.toList ++ [')']).takeWhile
      (· ≠ ':') = place.repr.toList := by
    rw [List.append_assoc, List.append_assoc, List.cons_append]
    exact takeWhile_ne_append_cons (fun h => absurd (EntityId.isDigit_of_mem_repr h) (by decide)) _
  have hid : (place.repr.toList ++ ':' :: between ++ ' ' :: id.text.toList ++
      [')']).dropLast.rtakeWhile (· ≠ ' ') = id.text.toList := by
    rw [List.dropLast_concat]
    exact rtakeWhile_ne_append_cons id.space_not_mem_text _
  rw [readHeading, hplace, hid, EntityId.readNumeral_repr, EntityId.read?_text]
  rfl

/-- The heading of a section is read back, whatever the name in it is. -/
theorem heading?_comment (place : Nat) (name : String) (id : EntityId) :
    heading? (.comment ("Policy " ++ toString place ++ ": " ++ name ++ " (id " ++ id.text ++ ")")) =
      some (id, place) := by
  have hchars : ("Policy " ++ toString place ++ ": " ++ name ++ " (id " ++ id.text ++ ")").toList =
      'P' :: 'o' :: 'l' :: 'i' :: 'c' :: 'y' :: ' ' :: (place.repr.toList ++
        ':' :: (' ' :: name.toList ++ " (id".toList) ++ ' ' :: id.text.toList ++ [')']) := by
    simp
  rw [heading?, hchars]
  exact readHeading_append place _ id

theorem headings_policySection (place : Nat) (c : CompiledPolicy) :
    headings (policySection place c) = [(c.policy.id, place)] := by
  rw [policySection, headings_append, headings_policyCommands, List.append_nil, headings,
    List.filterMap_cons_none (by rfl), List.filterMap_cons_some (heading?_comment place _ _)]
  rfl

theorem headings_policySections (place : Nat) (cs : List CompiledPolicy) :
    headings (policySections place cs) = (cs.map (·.policy.id)).zipIdx place := by
  induction cs generalizing place with
  | nil => rfl
  | cons c cs ih => simp [policySections, headings_policySection, ih]

/-- The sections of a script are numbered from 1, in the order of the plan. -/
theorem headings_ofPlan (p : Plan) :
    headings (ofPlan p) = (p.policies.map (·.policy.id)).zipIdx 1 := by
  simp [ofPlan, headings_header, headings_reset, headings_policySections]

end Script

namespace PolicySource

variable {s : PolicySource}

theorem Compiles.rules_ne_nil {p : Policy} {c : CompiledPolicy} (h : s.Compiles p c) :
    c.rules.rules ≠ [] := by
  obtain ⟨b, -, rfl⟩ := h
  exact RuleSet.compile_rules_ne_nil b p.priority p.download

theorem map_policy_of_forall₂ {ps : List Policy} {cs : List CompiledPolicy}
    (h : List.Forall₂ s.Compiles ps cs) : cs.map (·.policy) = ps := by
  induction h with
  | nil => rfl
  | cons hc _ ih => rw [List.map_cons, hc.policy, ih]

theorem rules_ne_nil_of_forall₂ {ps : List Policy} {cs : List CompiledPolicy}
    (h : List.Forall₂ s.Compiles ps cs) : ∀ c ∈ cs, c.rules.rules ≠ [] := by
  induction h with
  | nil => simp
  | cons hc _ ih => exact List.forall_mem_cons.mpr ⟨hc.rules_ne_nil, ih⟩

end PolicySource

namespace Store

/-- Nothing in a store is out of its range or refers to what is not there. -/
structure Intact (s : Store) : Prop where
  windows : ∀ p ∈ s.policies, ∀ w ∈ p.windows, w.start ≤ w.stop
  caps : ∀ p ∈ s.policies, ∀ n : UInt32, p.upload = some n ∨ p.download = some n →
    1 ≤ n.toNat ∧ n.toNat ≤ 4294967295
  classes : ∀ p ∈ s.policies, ∀ t ∈ s.targetsOf p.id, ∀ id, t.trafficClass = some id →
    ∃ k, s.source.trafficClass id = .ok k

end Store

/-- A cap of a row is in its range: zero is none. -/
theorem PolicyRow.CapIs.range {raw : Option Int} {cap : Option UInt32} (h : CapIs raw cap)
    {n : UInt32} (hn : cap = some n) : 1 ≤ n.toNat ∧ n.toNat ≤ 4294967295 := by
  subst hn
  have hlt := n.toNat_lt
  have hfilter : raw.filter (fun n => decide (n ≠ 0)) = some (n.toNat : Int) := h.symm
  have hne := (Option.filter_eq_some_iff.mp hfilter).2
  simp only [decide_eq_true_eq] at hne
  omega

namespace Catalog

variable {c : Catalog}

theorem intact_toStore : c.toStore.1.Intact where
  windows _ _ w _ := w.start_le_stop
  caps p hp n hn := by
    obtain ⟨row, -, hjoins⟩ := mem_policies_toStore.mp hp
    rcases hn with hn | hn
    · exact hjoins.fields.upload.range hn
    · exact hjoins.fields.download.range hn
  classes p hp t ht id hid := exists_trafficClass_of_mem_targetsOf ⟨p, hp, rfl⟩ ht hid

end Catalog

end TrafficWarden
