import TrafficWarden.Dispatch.Watch

/-!
# The loop of a watch

Without a delay in its ticks, a loop takes its `k`-th tick at `k` intervals, with its `k`-th load.
So its turns are the ticks of a run, and a cancellation cuts them off.
-/

namespace TrafficWarden.Watch

variable {σ : Type} (w : Watch σ) (interval : Nat) (cancel : Option Nat)

/-- Turns that follow each other from the `k`-th load on, each with its own load and its time. -/
inductive Successive : Nat → σ → List (Turn σ) → Prop
  | nil (k : Nat) (state : σ) : Successive k state []
  | cons {k : Nat} {state after : σ} {warnings : List Warning} {ts : List (Turn σ)}
    (htick : w.tick k state = (after, warnings)) (hrest : Successive (k + 1) after ts) :
    Successive k state (⟨k * interval, k, state, after, warnings⟩ :: ts)

/-- The loop waits for its `k`-th tick. -/
structure Awaits (k : Nat) (v : Vigil σ) : Prop where
  due : v.due = k * interval
  now : v.now ≤ v.due
  loads : v.loads = k

variable {w interval cancel}

theorem awaits_start (state : σ) : Awaits interval 0 (.start state) :=
  ⟨by simp [Vigil.start], Nat.le_refl _, rfl⟩

/-- A loop is cancelled before its next tick, or takes it when it is due. -/
theorem turn_cases {k : Nat} {v : Vigil σ} (hv : Awaits interval k v) :
    (∃ stop, cancel = some stop ∧ stop ≤ k * interval ∧ w.turn interval cancel v = none) ∨
      ((∀ stop, cancel = some stop → k * interval < stop) ∧ ∃ after warnings next,
        w.tick k v.state = (after, warnings) ∧ Awaits interval (k + 1) next ∧ next.state = after ∧
          w.turn interval cancel v =
            some (⟨k * interval, k, v.state, after, warnings⟩, next)) := by
  have htime : max v.now v.due = k * interval := by rw [Nat.max_eq_right hv.now, hv.due]
  have hover : cancel.any (· ≤ k * interval) = true ↔
      ∃ stop, cancel = some stop ∧ stop ≤ k * interval := by
    cases cancel <;> simp
  by_cases hstop : cancel.any (· ≤ k * interval) = true
  · obtain ⟨stop, hcancel, hle⟩ := hover.mp hstop
    refine .inl ⟨stop, hcancel, hle, ?_⟩
    rw [turn, htime, if_pos hstop]
  · refine .inr ⟨fun stop hcancel => ?_, (w.tick k v.state).1, (w.tick k v.state).2,
      ⟨k * interval, k * interval + interval, k + 1, (w.tick k v.state).1⟩, rfl,
      ⟨by rw [Nat.succ_mul], Nat.le_add_right _ _, rfl⟩, rfl, ?_⟩
    · exact Nat.lt_of_not_le fun hle => hstop (hover.mpr ⟨stop, hcancel, hle⟩)
    · rw [turn, htime, if_neg hstop, hv.loads]

/-- What is to be known of a loop that waits for its `k`-th tick: its turns follow each other and
come before any cancellation, and it ends with a cancellation only. -/
structure Loops (w : Watch σ) (interval : Nat) (cancel : Option Nat) (count k : Nat) (state : σ)
    (ts : List (Turn σ)) (ended : Bool) : Prop where
  successive : w.Successive interval k state ts
  early : ∀ stop, cancel = some stop → ∀ t ∈ ts, t.time < stop
  cancelled : ended = true → ∃ stop, cancel = some stop ∧ stop ≤ (k + ts.length) * interval
  running : ended = false → ts.length = count
  length_le : ts.length ≤ count

theorem loops_turns {k : Nat} {v : Vigil σ} (hv : Awaits interval k v) (count : Nat) :
    Loops w interval cancel count k v.state (w.turns interval cancel count v).1
      (w.turns interval cancel count v).2 := by
  induction count generalizing k v with
  | zero =>
    exact ⟨.nil k v.state, fun _ _ _ ht => absurd ht List.not_mem_nil, nofun, fun _ => rfl,
      Nat.le_refl _⟩
  | succ count ih =>
    rw [turns]
    obtain ⟨stop, hcancel, hle, hturn⟩ | ⟨hlate, after, warnings, next, htick, hnext, rfl, hturn⟩ :=
      turn_cases hv
    · rw [hturn]
      exact ⟨.nil k v.state, fun _ _ _ ht => absurd ht List.not_mem_nil,
        fun _ => ⟨stop, hcancel, hle⟩, nofun, Nat.zero_le _⟩
    · rw [hturn]
      obtain ⟨hsuccessive, hearly, hcancelled, hrunning, hlength⟩ := ih hnext
      refine ⟨.cons htick hsuccessive, fun stop hcancel => ?_, fun hended => ?_, fun hended => ?_,
        Nat.succ_le_succ hlength⟩
      · exact List.forall_mem_cons.mpr ⟨hlate stop hcancel, hearly stop hcancel⟩
      · rw [List.length_cons, ← Nat.add_assoc, Nat.add_right_comm]
        exact hcancelled hended
      · exact congrArg (· + 1) (hrunning hended)

section successive

/-- The `j`-th of successive turns has the `j`-th load, and its time. -/
theorem Successive.get {k : Nat} {state : σ} {ts : List (Turn σ)}
    (h : w.Successive interval k state ts) {j : Nat} {t : Turn σ} (ht : ts[j]? = some t) :
    t.number = k + j ∧ t.time = (k + j) * interval ∧
      w.tick t.number t.before = (t.after, t.warnings) := by
  induction h generalizing j with
  | nil k state => exact absurd ht (by simp)
  | @cons k state after warnings ts htick hrest ih =>
    cases j with
    | zero =>
      rw [List.getElem?_cons_zero] at ht
      rw [← Option.some.inj ht]
      exact ⟨rfl, rfl, htick⟩
    | succ j =>
      rw [List.getElem?_cons_succ] at ht
      obtain ⟨hnumber, htime, hrun⟩ := ih ht
      rw [Nat.add_right_comm, Nat.add_assoc] at hnumber htime
      exact ⟨hnumber, htime, hrun⟩

/-- Successive turns are the ticks of a run. -/
theorem Successive.run {k : Nat} {state : σ} {ts : List (Turn σ)}
    (h : w.Successive interval k state ts) : (w.run ts.length k state).1 = ts.map Turn.tick := by
  induction h with
  | nil k state => rfl
  | cons htick hrest ih =>
    rw [List.length_cons, Watch.run, htick, List.map_cons, ← ih]
    rfl

end successive

theorem lt_tickCount_iff (hinterval : 1 ≤ interval) {k stop : Nat} :
    k < tickCount interval stop ↔ k * interval < stop := by
  rw [tickCount, ← Nat.succ_le_iff, Nat.le_div_iff_mul_le hinterval, Nat.succ_mul]
  omega

/-- A loop that is cancelled makes as many turns as there are ticks before its cancellation. -/
theorem length_turns (hinterval : 1 ≤ interval) (stop count : Nat) (state : σ) :
    (w.turns interval (some stop) count (.start state)).1.length =
      min count (tickCount interval stop) := by
  have hloops : Loops w interval (some stop) count 0 state
      (w.turns interval (some stop) count (.start state)).1
      (w.turns interval (some stop) count (.start state)).2 :=
    loops_turns (awaits_start state) count
  generalize (w.turns interval (some stop) count (.start state)).1 = ts at hloops ⊢
  generalize (w.turns interval (some stop) count (.start state)).2 = ended at hloops
  have hbefore : ts.length ≤ tickCount interval stop := by
    cases hlength : ts.length with
    | zero => exact Nat.zero_le _
    | succ n =>
      have hn : n < ts.length := by omega
      have htime := (hloops.successive.get (List.getElem?_eq_getElem hn)).2.1
      have hearly := hloops.early stop rfl ts[n] (List.getElem_mem hn)
      rw [htime, Nat.zero_add] at hearly
      exact (lt_tickCount_iff hinterval).mpr hearly
  refine Nat.le_antisymm (Nat.le_min.mpr ⟨hloops.length_le, hbefore⟩) ?_
  cases ended with
  | false =>
    rw [hloops.running rfl]
    exact Nat.min_le_left _ _
  | true =>
    obtain ⟨_, hcancel, hle⟩ := hloops.cancelled rfl
    obtain rfl := Option.some.inj hcancel
    rw [Nat.zero_add, ← Nat.not_lt, ← lt_tickCount_iff hinterval, Nat.not_lt] at hle
    exact Nat.le_trans (Nat.min_le_right _ _) hle

end TrafficWarden.Watch
