import TrafficWarden.Dispatch.Cycle

/-!
# Watching

A watch runs one cycle at once and one after each interval, until it is cancelled. Every cycle
loads its policies anew. A cycle that fails is reported, and the watch goes on.

The loop itself stands for three things of the runtime it uses: an interval timer, of which the
first tick is due at once and each later one an interval after the one before it was taken, late or
not; a token that is cancelled at some time or never; and a choice between the two that asks the
token first. A tick takes no time here. A run has the ticks of that loop without its times.
-/

namespace TrafficWarden

open Calendar

variable {σ : Type}

/-- What a watch works with: how it loads policies on its `n`-th tick, how late that is, and what
applies the scripts. -/
structure Watch (σ : Type) where
  load : Nat → Except Fault PolicySource × List Warning
  clock : Nat → Timestamp
  runner : Timestamp → Runner σ
  interfaces : Interfaces

/-- One tick: its number, the state before it, and what it reported. -/
structure Tick (σ : Type) where
  number : Nat
  before : σ
  warnings : List Warning

namespace Watch

/-- One cycle on the policies that are loaded for a tick. -/
def attempt (w : Watch σ) (n : Nat) (state : σ) :
    Except Fault DispatchOutcome × σ × List Warning :=
  match w.load n with
  | (.error fault, warnings) => (.error fault, state, warnings)
  | (.ok source, warnings) =>
    let now := w.clock n
    let (result, state, more) := source.cycle (w.runner now) w.interfaces now false state
    (result, state, warnings ++ more)

def report : Except Fault DispatchOutcome → List Warning
  | .ok _ => []
  | .error fault => [.cycleFailed fault]

/-- The state after a tick, and what was reported in it. -/
def tick (w : Watch σ) (n : Nat) (state : σ) : σ × List Warning :=
  let (result, state, warnings) := w.attempt n state
  (state, warnings ++ report result)

/-- The ticks from number `n` on, as many as `count`, and the state after them. -/
def run (w : Watch σ) : (count n : Nat) → σ → List (Tick σ) × σ
  | 0, _, state => ([], state)
  | count + 1, n, state =>
    let (next, warnings) := w.tick n state
    let (ticks, final) := run w count (n + 1) next
    (⟨n, state, warnings⟩ :: ticks, final)

end Watch

/-- A loop between two ticks: the time, when its next tick is due, and how many loads it made. -/
structure Vigil (σ : Type) where
  now : Nat
  due : Nat
  loads : Nat
  state : σ

def Vigil.start (state : σ) : Vigil σ := ⟨0, 0, 0, state⟩

/-- A tick that a loop woke up for: its time, the number of its load, and what became of the
state. -/
structure Turn (σ : Type) where
  time : Nat
  number : Nat
  before : σ
  after : σ
  warnings : List Warning

def Turn.tick (t : Turn σ) : Tick σ := ⟨t.number, t.before, t.warnings⟩

namespace Watch

variable (w : Watch σ) (interval : Nat) (cancel : Option Nat)

/-- The next turn of a loop, and the loop after it, unless it is cancelled before. -/
def turn (v : Vigil σ) : Option (Turn σ × Vigil σ) :=
  let time := max v.now v.due
  -- a cancellation goes first when both are due
  if cancel.any (· ≤ time) then none
  else
    let (after, warnings) := w.tick v.loads v.state
    some (⟨time, v.loads, v.state, after, warnings⟩, ⟨time, time + interval, v.loads + 1, after⟩)

/-- The turns of a loop, as many as `count` at most, and whether a cancellation ended it. -/
def turns : (count : Nat) → Vigil σ → List (Turn σ) × Bool
  | 0, _ => ([], false)
  | count + 1, v =>
    match w.turn interval cancel v with
    | none => ([], true)
    | some (t, next) =>
      let (rest, ended) := turns count next
      (t :: rest, ended)

end Watch

/-- The number of ticks that fall before a watch is cancelled: those at 0, `interval`,
`2 * interval` and so on that come before `stop`. -/
def tickCount (interval stop : Nat) : Nat := (stop + interval - 1) / interval

end TrafficWarden
