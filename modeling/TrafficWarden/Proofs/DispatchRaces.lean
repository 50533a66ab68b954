import TrafficWarden.Dispatch.ScriptFile
import TrafficWarden.Proofs.CycleRuns

/-!
# Races between a cycle and its record

A cycle takes its time first and writes its script afterwards, and the record of the dispatch is the
time of the script file. Later decisions compare with that record. So what became active between the
two moments is in no script, and no decision sees it before the active policies change again.
-/

namespace TrafficWarden

open Calendar Files

section quiet

variable {σ : Type} (interfaces : Interfaces)

/-- Cycles that follow one another find nothing to do: none applies a script, and none fails. -/
def CycleStep.Quiet : σ → List (CycleStep σ) → Prop
  | _, [] => True
  | state, c :: rest =>
    (∃ why, (c.cycle interfaces state).1 = .ok (.skipped why)) ∧
      CycleStep.Quiet (c.cycle interfaces state).2 rest

variable {interfaces}

theorem CycleStep.state_of_skipped {c : CycleStep σ} {state : σ} {why : DispatchState}
    (h : (c.cycle interfaces state).1 = .ok (.skipped why)) :
    (c.cycle interfaces state).2 = state := by
  obtain ⟨next, hnext, heffect⟩ := CycleStep.exists_effect h
  cases heffect
  exact hnext

theorem Progress.next_state (p : Progress σ) (c : CycleStep σ) :
    (p.next interfaces c).state = (c.cycle interfaces p.state).2 := by
  unfold next
  split <;> simp [*]

/-- Cycles that find nothing to do leave the state. -/
theorem Progress.state_of_quiet {p : Progress σ} {steps : List (CycleStep σ)}
    (h : CycleStep.Quiet interfaces p.state steps) :
    (steps.foldl (next interfaces) p).state = p.state := by
  induction steps generalizing p with
  | nil => rfl
  | cons c rest ih =>
    obtain ⟨⟨why, hskip⟩, hrest⟩ := h
    have hstate : (p.next interfaces c).state = p.state :=
      (p.next_state c).trans (CycleStep.state_of_skipped hskip)
    rw [← p.next_state c] at hrest
    rw [List.foldl_cons, ih hrest, hstate]

end quiet

namespace Store

/-- The identities of the policies that are active at a moment. -/
def activeIdsAt (store : Store) (moment : Timestamp) : OrderedSet EntityId :=
  .ofList ((store.activeAt moment).map (·.id))

/-- The same identities are active at two moments. -/
def SameActive (store : Store) (before now : Timestamp) : Prop :=
  ∀ id, id ∈ store.activeIdsAt before ↔ id ∈ store.activeIdsAt now

/-- A decision after a dispatch finds nothing to do if and only if the same policies are active as
at the recorded moment. -/
theorem status_idle_iff (store : Store) (before now : Timestamp) :
    (∃ status, store.source.status (.ok (some before)) now = .ok status ∧
      status.state.needsDispatch = false) ↔ store.SameActive before now := by
  have hpolicies : store.source.policies = .ok store.policies := rfl
  have hsame : store.SameActive before now ↔
      setChanged (activeIdsOf store.policies before) (activeIdsOf store.policies now) = false :=
    setChanged_eq_false_iff.symm
  rw [PolicySource.status_of_policies hpolicies, hsame]
  cases setChanged (activeIdsOf store.policies before) (activeIdsOf store.policies now) <;>
    simp [DispatchState.needsDispatch]

end Store

namespace PolicySource

variable {σ : Type} (s : PolicySource) (runner : Runner σ) (interfaces : Interfaces)
  (now : Timestamp) (state : σ)

theorem applyPlan_ne_skipped (why : DispatchState) :
    (s.applyPlan runner interfaces now state).1 ≠ .ok (.skipped why) := by
  unfold applyPlan
  rcases s.plan interfaces now with ⟨fault | plan, warnings⟩
  · simp
  · rcases happly : runner.apply state plan.script with ⟨fault | ⟨⟩, next, more⟩ <;> simp [happly]

/-- An unforced cycle skips if and only if its decision finds nothing to do. -/
theorem cycle_skipped_iff :
    (∃ why, (s.cycle runner interfaces now false state).1 = .ok (.skipped why)) ↔
      ∃ status, s.status (runner.last state) now = .ok status ∧
        status.state.needsDispatch = false := by
  unfold cycle
  cases s.status (runner.last state) now with
  | error fault => simp
  | ok status =>
    cases hneeds : status.state.needsDispatch with
    | true =>
      have happly := s.applyPlan_ne_skipped runner interfaces now state
      simp [hneeds, happly]
    | false => simp [hneeds]

end PolicySource

namespace CycleStep

open Progress (run run_append_singleton)

/-- An unforced cycle on a store that keeps its script in a file. What runs the script, what the
machine refuses, and when the file is written are left open. -/
structure OnFile (c : CycleStep Tree) (store : Store) (file : ScriptFile) : Prop where
  source : c.source = store.source
  runner : ∃ program hazards written, c.runner = ⟨file.last, file.apply program hazards written⟩
  unforced : c.force = false

/-- A cycle applies its script, and leaves a script file of the given time. -/
structure Leaves (interfaces : Interfaces) (c : CycleStep Tree) (file : ScriptFile) (files : Tree)
    (moment : Timestamp) : Prop where
  applied : ∃ policies rules, (c.cycle interfaces files).1 = .ok (.applied policies rules)
  record : file.last (c.cycle interfaces files).2 = .ok (some moment)

variable {interfaces : Interfaces} {store : Store} {file : ScriptFile}

/-- A cycle skips if and only if the active policies are those of the time of the script file. -/
theorem OnFile.skipped_iff {c : CycleStep Tree} (h : c.OnFile store file) {files : Tree}
    {recorded : Timestamp} (hrecord : file.last files = .ok (some recorded)) :
    (∃ why, (c.cycle interfaces files).1 = .ok (.skipped why)) ↔
      store.SameActive recorded c.now := by
  obtain ⟨program, hazards, written, hrunner⟩ := h.runner
  have hcycle : (c.cycle interfaces files).1 =
      (store.source.cycle c.runner interfaces c.now false files).1 := by
    rw [cycle, h.source, h.unforced]
  have hlast : c.runner.last files = .ok (some recorded) := by
    rw [hrunner]
    exact hrecord
  rw [hcycle, PolicySource.cycle_skipped_iff, hlast, Store.status_idle_iff]

/-- After a cycle that applied a script, and cycles with nothing to do, a cycle skips if and only if
the active policies are those of the time of the script file, whatever was active at the time that
the script was made for. A change since that time which is skipped came before the file was
written. -/
theorem skipped_iff_active_at_record (interfaces : Interfaces) (file : ScriptFile)
    (inserts : List StoreInsert) {start : Tree} {before between : List (CycleStep Tree)}
    {a c : CycleStep Tree}
    (hrun : ∀ b ∈ before ++ a :: between ++ [c], b.OnFile (.ofInserts inserts) file)
    {recorded : Timestamp}
    (hleaves : a.Leaves interfaces file (run interfaces start before).state recorded)
    (hquiet : Quiet interfaces (run interfaces start (before ++ [a])).state between) :
    ((∃ why, (c.cycle interfaces (run interfaces start (before ++ a :: between)).state).1 =
        .ok (.skipped why)) ↔ (Store.ofInserts inserts).SameActive recorded c.now) ∧
      (¬ (Store.ofInserts inserts).SameActive a.now c.now →
        (∃ why, (c.cycle interfaces (run interfaces start (before ++ a :: between)).state).1 =
          .ok (.skipped why)) → ¬ (Store.ofInserts inserts).SameActive a.now recorded) := by
  have hc : c.OnFile (.ofInserts inserts) file := hrun c (by simp)
  have hstate : (run interfaces start (before ++ a :: between)).state =
      (a.cycle interfaces (run interfaces start before).state).2 := by
    rw [List.append_cons, run, List.foldl_append]
    rw [← Progress.next_state, ← run_append_singleton]
    exact Progress.state_of_quiet hquiet
  have hrecord : file.last (run interfaces start (before ++ a :: between)).state =
      .ok (some recorded) := by
    rw [hstate]
    exact hleaves.record
  refine ⟨hc.skipped_iff hrecord, fun hchanged hskip hsame => hchanged fun id => ?_⟩
  exact (hsame id).trans ((hc.skipped_iff hrecord).mp hskip id)

/-- The office opens after the time of a cycle and before its script file is written. The cycles
after that find nothing to do. -/
theorem skipped_iff_active_at_record_of_opening :
    let office : Policy := ⟨⟨1⟩, "office", none, true, none, none, none,
      [⟨.thursday, ⟨9, 0, 0⟩, ⟨17, 0, 0⟩, by decide⟩]⟩
    let store := Store.ofInserts [.policy office]
    let file : ScriptFile := ⟨"dispatch.sh", "true"⟩
    let eight : Timestamp := { Timestamp.epoch with time := ⟨8, 59, 59⟩ }
    let nine : Timestamp := { Timestamp.epoch with time := ⟨9, 0, 0⟩ }
    let later : Timestamp := { Timestamp.epoch with time := ⟨9, 1, 0⟩ }
    let noon : Timestamp := { Timestamp.epoch with time := ⟨12, 0, 0⟩ }
    let a : CycleStep Tree := ⟨store.source, file.runner nine, eight, false⟩
    let b : CycleStep Tree := ⟨store.source, file.runner later, later, false⟩
    let c : CycleStep Tree := ⟨store.source, file.runner noon, noon, false⟩
    let start := Tree.empty .epoch
    (a.Leaves .standard file (run .standard start []).state nine ∧
      Quiet .standard (run .standard start [a]).state [b]) ∧
    ((∃ why, (c.cycle .standard (run .standard start [a, b]).state).1 = .ok (.skipped why)) ↔
      store.SameActive nine noon) ∧
    (¬ store.SameActive eight noon →
      (∃ why, (c.cycle .standard (run .standard start [a, b]).state).1 = .ok (.skipped why)) →
        ¬ store.SameActive eight nine) := by
  intro office store file eight nine later noon a b c start
  have hleaves : a.Leaves .standard file (run .standard start []).state nine :=
    ⟨⟨0, 0, by decide +kernel⟩, by decide +kernel⟩
  have hquiet : Quiet .standard (run .standard start [a]).state [b] :=
    ⟨⟨.idle, by decide +kernel⟩, trivial⟩
  have hrun : ∀ d ∈ [] ++ a :: [b] ++ [c], d.OnFile store file := by
    intro d hd
    simp only [List.nil_append, List.cons_append, List.mem_cons, List.not_mem_nil, or_false] at hd
    rcases hd with rfl | rfl | rfl
    · exact ⟨rfl, ⟨_, _, _, rfl⟩, rfl⟩
    · exact ⟨rfl, ⟨_, _, _, rfl⟩, rfl⟩
    · exact ⟨rfl, ⟨_, _, _, rfl⟩, rfl⟩
  exact ⟨⟨hleaves, hquiet⟩, skipped_iff_active_at_record .standard file _ hrun hleaves hquiet⟩

/-- A window that opens between a cycle and its record is missed: the policy is not active at the
time of the cycle that applies a script, and active from the time of the script file on, and a later
cycle skips. -/
theorem opened_window_missed :
    let office : Policy := ⟨⟨1⟩, "office", none, true, none, none, none,
      [⟨.thursday, ⟨9, 0, 0⟩, ⟨17, 0, 0⟩, by decide⟩]⟩
    let store := Store.ofInserts [.policy office]
    let file : ScriptFile := ⟨"dispatch.sh", "true"⟩
    let eight : Timestamp := { Timestamp.epoch with time := ⟨8, 59, 59⟩ }
    let nine : Timestamp := { Timestamp.epoch with time := ⟨9, 0, 0⟩ }
    let noon : Timestamp := { Timestamp.epoch with time := ⟨12, 0, 0⟩ }
    let a : CycleStep Tree := ⟨store.source, file.runner nine, eight, false⟩
    let c : CycleStep Tree := ⟨store.source, file.runner noon, noon, false⟩
    let files := (run .standard (Tree.empty .epoch) [a]).state
    a.Leaves .standard file (Tree.empty .epoch) nine ∧
      (store.activeIdsAt eight).toList = [] ∧ (store.activeIdsAt noon).toList = [⟨1⟩] ∧
        (c.cycle .standard files).1 = .ok (.skipped .idle) :=
  ⟨⟨⟨0, 0, by decide +kernel⟩, by decide +kernel⟩, by decide +kernel, by decide +kernel,
    by decide +kernel⟩

end CycleStep

end TrafficWarden
