import TrafficWarden.Dispatch.Decision
import TrafficWarden.Script

/-!
# Dispatch cycles

A cycle decides whether a dispatch is due, and if so applies the whole script of the plan or fails
as a whole. A `Runner` is what applies scripts and remembers when that last succeeded.
-/

namespace TrafficWarden

open Calendar

/-- What applies scripts, on a state of type `σ`. -/
structure Runner (σ : Type) where
  last : σ → Except Fault (Option Timestamp)
  apply : σ → String → Except Fault Unit × σ × List Warning

inductive DispatchOutcome where
  | skipped (state : DispatchState)
  | applied (policies rules : Nat)
deriving DecidableEq, Repr

namespace PolicySource

/-- The script of a moment, which is not applied. -/
def preview (s : PolicySource) (interfaces : Interfaces) (moment : Timestamp) :
    Except Fault String × List Warning :=
  let (plan, warnings) := s.plan interfaces moment
  (plan.map Plan.script, warnings)

/-- Applies the script of a moment. -/
def applyPlan {σ : Type} (s : PolicySource) (runner : Runner σ) (interfaces : Interfaces)
    (now : Timestamp) (state : σ) : Except Fault DispatchOutcome × σ × List Warning :=
  match s.plan interfaces now with
  | (.error fault, warnings) => (.error fault, state, warnings)
  | (.ok plan, warnings) =>
    match runner.apply state plan.script with
    | (.error fault, state, more) => (.error fault, state, warnings ++ more)
    | (.ok (), state, more) =>
      (.ok (.applied plan.policies.length plan.ruleCount), state, warnings ++ more)

/-- One cycle. A forced cycle applies without a decision. -/
def cycle {σ : Type} (s : PolicySource) (runner : Runner σ) (interfaces : Interfaces)
    (now : Timestamp) (force : Bool) (state : σ) :
    Except Fault DispatchOutcome × σ × List Warning :=
  if force then s.applyPlan runner interfaces now state
  else
    match s.status (runner.last state) now with
    | .error fault => (.error fault, state, [])
    | .ok status =>
      if status.state.needsDispatch then s.applyPlan runner interfaces now state
      else (.ok (.skipped status.state), state, [])

end PolicySource

/-- A runner that keeps the scripts that it applied. Its next `failures` applications fail, and its
record cannot be read while it is `unreadable`. -/
structure Recording where
  scripts : List String
  recorded : Option Timestamp
  failures : Nat
  unreadable : Bool
  attempts : Nat
deriving DecidableEq, Repr

namespace Recording

def empty : Recording := ⟨[], none, 0, false, 0⟩

instance : Inhabited Recording := ⟨empty⟩

def refusal : Fault := .scriptFailed "exit status: 3" "no such chain"

def clockGone : Fault := .io (.other "clock gone")

def last (r : Recording) : Except Fault (Option Timestamp) :=
  if r.unreadable then .error clockGone else .ok r.recorded

/-- Keeps a script and records the given moment, or refuses it. -/
def apply (now : Timestamp) (r : Recording) (script : String) :
    Except Fault Unit × Recording × List Warning :=
  match r.failures with
  | n + 1 => (.error refusal, { r with failures := n, attempts := r.attempts + 1 }, [])
  | 0 =>
    (.ok (),
      { r with
        scripts := r.scripts ++ [script]
        recorded := some now
        attempts := r.attempts + 1 }, [])

/-- The recording runner of a cycle at the given moment. -/
def runner (now : Timestamp) : Runner Recording := ⟨last, apply now⟩

end Recording

end TrafficWarden
