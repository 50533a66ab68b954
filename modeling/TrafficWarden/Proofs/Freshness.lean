import TrafficWarden.Proofs.FaultyRuns

/-!
# Freshness of the applied script

On a store that is not changed, whatever fails and whatever is forced in between, a cycle that does
not fail leaves the script of the present moment in place, up to the line that tells its moment, and
up to the policies that were skipped when the script was made.
-/

namespace TrafficWarden

open Calendar

namespace Text

theorem splitAt_append_sep (sep : Char) (cs rest : List Char) :
    splitAt sep (cs ++ sep :: rest) = splitAt sep cs ++ splitAt sep rest := by
  induction cs with
  | nil => simp [splitAt]
  | cons c cs ih =>
    rw [List.cons_append, splitAt, splitAt, ih]
    split
    · rfl
    · cases hcs : splitAt sep cs with
      | nil => exact absurd hcs (splitAt_ne_nil sep cs)
      | cons piece pieces => rfl

/-- A text without its separator is one piece. -/
theorem splitAt_of_not_mem {sep : Char} {cs : List Char} (h : sep ∉ cs) :
    splitAt sep cs = [cs] := by
  induction cs with
  | nil => rfl
  | cons c cs ih =>
    rw [List.mem_cons, not_or] at h
    rw [splitAt, if_neg (Ne.symm h.1), ih h.2]

theorem newline_not_mem_padded (width n : Nat) : '\n' ∉ (padded width n).toList := by
  have hdigits : '\n' ∉ (toString n).toList := by
    intro h
    rw [Nat.toString_eq_repr, Nat.repr, String.toList_ofList] at h
    exact absurd (Nat.isDigit_of_mem_toDigits (by decide) (by decide) h) (by decide)
  rw [padded, String.toList_append, String.toList_ofList, List.mem_append, not_or]
  refine ⟨fun h => ?_, hdigits⟩
  exact absurd (List.eq_of_mem_replicate h) (by decide)

end Text

theorem Calendar.Timestamp.newline_not_mem_text (t : Timestamp) : '\n' ∉ t.text.toList := by
  have hyear : '\n' ∉ (yearText t.date.year).toList := by
    unfold yearText
    split
    · exact Text.newline_not_mem_padded _ _
    · split <;> simp [Text.newline_not_mem_padded]
  simp [Timestamp.text, Date.text, TimeOfDay.wholeText, hyear, Text.newline_not_mem_padded]

namespace Script

def linesOf (text : String) : List (List Char) := Text.splitAt '\n' text.toList

/-- Two scripts agree in every line but one, which tells when they were made. -/
def SameButMoment (s t : String) : Prop :=
  ∃ before a b after,
    linesOf s = before ++ ("# Generated by netcop at " ++ a).toList :: after ∧
      linesOf t = before ++ ("# Generated by netcop at " ++ b).toList :: after

theorem text_cons (line : ScriptLine) (s : Script) :
    text (line :: s) = line.text ++ "\n" ++ text s := by
  rw [text, List.map_cons, String.join_cons, text]

theorem linesOf_cons (line : ScriptLine) (s : Script) :
    linesOf (text (line :: s)) = linesOf line.text ++ linesOf (text s) := by
  have hchars : (text (line :: s)).toList = line.text.toList ++ '\n' :: (text s).toList := by
    simp [text_cons]
  rw [linesOf, hchars, Text.splitAt_append_sep]
  rfl

theorem linesOf_text_cons {line : ScriptLine} (h : '\n' ∉ line.text.toList) (s : Script) :
    linesOf (text (line :: s)) = line.text.toList :: linesOf (text s) := by
  rw [linesOf_cons, linesOf, Text.splitAt_of_not_mem h]
  rfl

/-- More lines of a script are more lines of its text. -/
theorem length_linesOf_lt (s : Script) {t : Script} (ht : t ≠ []) :
    (linesOf (text s)).length < (linesOf (text (s ++ t))).length := by
  have hpos : ∀ text, 0 < (linesOf text).length := fun text =>
    List.length_pos_of_ne_nil (Text.splitAt_ne_nil _ _)
  induction s with
  | nil =>
    obtain ⟨line, rest, rfl⟩ := List.exists_cons_of_ne_nil ht
    have hone : (linesOf (text [])).length = 1 := rfl
    have hline := hpos line.text
    have hrest := hpos (text rest)
    rw [List.nil_append, linesOf_cons, List.length_append, hone]
    omega
  | cons line s ih =>
    rw [List.cons_append, linesOf_cons, linesOf_cons, List.length_append, List.length_append]
    omega

/-- The script of a plan has its moment in the second line alone. -/
theorem exists_linesOf_script (p : Plan) :
    ∃ after, ∀ moment, linesOf ({ p with moment := moment } : Plan).script =
      ["#!/bin/sh".toList] ++ ("# Generated by netcop at " ++
        (moment.text ++ ". Rewritten on every dispatch.")).toList :: after := by
  refine ⟨linesOf (text ((header p).drop 2 ++ reset ++ policySections 1 p.policies)),
    fun moment => ?_⟩
  have hscript : ({ p with moment := moment } : Plan).script =
      text (.interpreter "/bin/sh" :: .comment ("Generated by netcop at " ++ moment.text ++
        ". Rewritten on every dispatch.") ::
          ((header p).drop 2 ++ reset ++ policySections 1 p.policies)) := rfl
  have hmoment := moment.newline_not_mem_text
  rw [hscript, linesOf_text_cons (by decide),
    linesOf_text_cons (by simp [ScriptLine.text, hmoment])]
  simp [ScriptLine.text]

theorem sameButMoment_script (p : Plan) (moment : Timestamp) :
    SameButMoment p.script ({ p with moment := moment } : Plan).script := by
  obtain ⟨after, hlines⟩ := exists_linesOf_script p
  exact ⟨_, _, _, after, hlines p.moment, hlines moment⟩

end Script

theorem Script.SameButMoment.length_linesOf {s t : String} (h : SameButMoment s t) :
    (linesOf s).length = (linesOf t).length := by
  obtain ⟨before, a, b, after, hs, ht⟩ := h
  simp [hs, ht]

/-- A script that goes on after another one is not the same, whatever the moments of the two. -/
theorem Script.not_sameButMoment {p q : Plan} {t : Script} (ht : t ≠ [])
    (h : ofPlan q = ofPlan { p with moment := q.moment } ++ t) :
    ¬ SameButMoment p.script q.script := by
  intro hsame
  have hlt := length_linesOf_lt (ofPlan { p with moment := q.moment }) ht
  have hlength := (sameButMoment_script p q.moment).length_linesOf
  rw [← h] at hlt
  exact absurd (hlength.symm.trans hsame.length_linesOf) (Nat.ne_of_lt hlt)

namespace FaultyRun

variable {σ : Type} {ledger : σ → Ledger} {interfaces : Interfaces} {r : FaultyRun σ}

/-- Whatever cycles ran on a store before, from a state without a recorded dispatch, and whichever
of their reads failed: a cycle that does not fail, whether it applies a script or skips, leaves as
the last applied one a script that differs from the script of the present plan at most in the line
that tells its moment, and in that it is without the policies which the cycle that applied it had to
skip. If the store does not compile those anyway, nothing is missing. -/
theorem last_script_fresh (inserts : List StoreInsert)
    (hstart : (ledger r.start).recorded = none)
    (hon : ∀ n, (r.cycles n).On ledger (.ofInserts inserts)) {n : Nat} {outcome : DispatchOutcome}
    (hok : r.result interfaces n = .ok outcome) :
    ∃ a plan script, r.AppliesLast interfaces a (n + 1) ∧
      ((Store.ofInserts inserts).source.plan interfaces (r.cycles n).now).1 = .ok plan ∧
      (ledger (r.state interfaces (n + 1))).scripts.getLast? = some script ∧
      Script.SameButMoment script (plan.without ((r.cycles a).skipped interfaces)).script ∧
      ((∀ id ∈ (r.cycles a).skipped interfaces,
          ∀ b, (Store.ofInserts inserts).source.bag id ≠ .ok b) →
        Script.SameButMoment script plan.script) := by
  have hstore := Store.distinctIds_ofInserts inserts
  obtain ⟨a, applied, hlast, happlied, hscript, hactive⟩ := r.settled hstore hon hstart hok
  obtain ⟨full, hfull⟩ := (Store.ofInserts inserts).exists_plan interfaces (r.cycles a).now
  have hpresent := Store.plan_of_activeAt_eq hactive hfull
  have hsame : Script.SameButMoment applied.script
      (({ full with moment := (r.cycles n).now } : Plan).without
        ((r.cycles a).skipped interfaces)).script := by
    rw [(hon a).answer.plan_eq hstore happlied hfull]
    exact Script.sameButMoment_script _ (r.cycles n).now
  refine ⟨a, _, applied.script, hlast, hpresent, hscript, hsame, fun hskipped => ?_⟩
  rw [Plan.without_eq_self hpresent hskipped] at hsame
  exact hsame

/-- An office policy whose only target names a class. -/
def officeStore : Store :=
  .ofInserts [.policy ⟨⟨1⟩, "office", none, true, none, none, none, []⟩,
    .target ⟨⟨1⟩, ⟨1⟩, .source, some ⟨9⟩, none⟩,
    .trafficClass ⟨⟨9⟩, "lan", "", true, .user, [], []⟩]

/-- The store of the office, but its classes cannot be read. -/
def classlessOffice (fault : Fault) : PolicySource :=
  { officeStore.source with trafficClass := fun _ => .error fault }

theorem answers_classlessOffice (fault : Fault) : (classlessOffice fault).Answers officeStore where
  policies := .inl rfl
  targets _ := .inl rfl
  trafficClass _ := .inr ⟨fault, rfl⟩

/-- The first cycle cannot read a class and fails, the next one applies its script, and half a day
later there is nothing to do. -/
theorem last_script_fresh_of_skipped :
    let noon : Timestamp := { Timestamp.epoch with time := ⟨12, 0, 0⟩ }
    let down : CycleReads :=
      { (officeStore.source : CycleReads) with
        bags := fun _ _ => classlessOffice (.storeUnavailable "locked") }
    let r : FaultyRun Recording := ⟨.empty, fun
      | 0 => ⟨down, Recording.runner .epoch, .epoch, true⟩
      | 1 => ⟨officeStore.source, Recording.runner .epoch, .epoch, false⟩
      | _ => ⟨officeStore.source, Recording.runner noon, noon, false⟩⟩
    (Recording.ledger r.start).recorded = none ∧
      (∀ n, (r.cycles n).On Recording.ledger officeStore) ∧
      r.result .standard 0 = .error (.storeUnavailable "locked") ∧
      r.result .standard 2 = .ok (.skipped .idle) ∧
      ∃ a plan script, r.AppliesLast .standard a 3 ∧
        (officeStore.source.plan .standard noon).1 = .ok plan ∧
        (Recording.ledger (r.state .standard 3)).scripts.getLast? = some script ∧
        Script.SameButMoment script (plan.without ((r.cycles a).skipped .standard)).script ∧
        ((∀ id ∈ (r.cycles a).skipped .standard, ∀ b, officeStore.source.bag id ≠ .ok b) →
          Script.SameButMoment script plan.script) := by
  intro noon down r
  have hstart : (Recording.ledger r.start).recorded = none := rfl
  have hdown : down.Answer officeStore :=
    { officeStore.answers_source.answer with bags := fun _ _ => answers_classlessOffice _ }
  have hon : ∀ n, (r.cycles n).On Recording.ledger officeStore := by
    intro n
    match n with
    | 0 => exact ⟨hdown, Recording.keeps_runner _⟩
    | 1 => exact ⟨officeStore.answers_source.answer, Recording.keeps_runner _⟩
    | _ + 2 => exact ⟨officeStore.answers_source.answer, Recording.keeps_runner _⟩
  have hok : r.result .standard 2 = .ok (.skipped .idle) := by decide +kernel
  exact ⟨hstart, hon, by decide +kernel, hok, last_script_fresh _ hstart hon hok⟩

/-- A policy is missing for good if the cycle that applies the script is told that its class does
not exist: the cycle skips the policy, and half a day later there is nothing to do. -/
theorem skipped_policy_missed :
    let noon : Timestamp := { Timestamp.epoch with time := ⟨12, 0, 0⟩ }
    let r : FaultyRun Recording := ⟨.empty, fun
      | 0 => ⟨classlessOffice (.notFound .trafficClass ⟨9⟩), Recording.runner .epoch, .epoch, false⟩
      | _ => ⟨officeStore.source, Recording.runner noon, noon, false⟩⟩
    (Recording.ledger r.start).recorded = none ∧
      (∀ n, (r.cycles n).On Recording.ledger officeStore) ∧
      r.result .standard 0 = .ok (.applied 0 0) ∧ r.result .standard 1 = .ok (.skipped .idle) ∧
      ∃ plan script, (officeStore.source.plan .standard noon).1 = .ok plan ∧
        plan.policyIds.toList = [⟨1⟩] ∧
        (Recording.ledger (r.state .standard 2)).scripts.getLast? = some script ∧
        ¬ Script.SameButMoment script plan.script := by
  intro noon r
  have hon : ∀ n, (r.cycles n).On Recording.ledger officeStore := by
    intro n
    match n with
    | 0 => exact ⟨(answers_classlessOffice _).answer, Recording.keeps_runner _⟩
    | _ + 1 => exact ⟨officeStore.answers_source.answer, Recording.keeps_runner _⟩
  let office : CompiledPolicy :=
    .compile ⟨⟨1⟩, "office", none, true, none, none, none, []⟩ ∅
  have hmissed : ¬ Script.SameButMoment (⟨.standard, .epoch, []⟩ : Plan).script
      (⟨.standard, noon, [office]⟩ : Plan).script :=
    Script.not_sameButMoment (List.cons_ne_nil _ _) rfl
  exact ⟨rfl, hon, by decide +kernel, by decide +kernel, ⟨.standard, noon, [office]⟩, _,
    by decide +kernel, by decide +kernel, rfl, hmissed⟩

end FaultyRun

end TrafficWarden
