import TrafficWarden.Plan

/-!
# Whether to dispatch

Nothing was dispatched yet, or some policy has windows and the active policies are others than at
the last dispatch: then a dispatch is due.
-/

namespace TrafficWarden

open Calendar

inductive DispatchState where
  | noPriorDispatch
  | idle
  | dispatchNeeded
deriving DecidableEq, Repr

namespace DispatchState

def name : DispatchState → String
  | noPriorDispatch => "no_prior_dispatch"
  | idle => "idle"
  | dispatchNeeded => "dispatch_needed"

def needsDispatch : DispatchState → Bool
  | idle => false
  | _ => true

end DispatchState

def decideState (last : Option Timestamp) (temporal changed : Bool) : DispatchState :=
  match last with
  | none => .noPriorDispatch
  | some _ => if temporal && changed then .dispatchNeeded else .idle

/-- Whether some identity is in exactly one of two sets. -/
def setChanged (previous current : OrderedSet EntityId) : Bool :=
  previous.toList.any (fun id => !current.toList.contains id) ||
    current.toList.any (fun id => !previous.toList.contains id)

/-- A decision with what it rests on. Whether the set changed is looked at only after a dispatch
and if some policy has windows. -/
structure DispatchStatus where
  last : Option Timestamp
  temporal : Bool
  changed : Option Bool
  state : DispatchState
deriving DecidableEq, Repr

namespace PolicySource

def activeIds (s : PolicySource) (moment : Timestamp) : Except Fault (OrderedSet EntityId) := do
  let active ← s.active moment
  return .ofList (active.map (·.id))

/-- Whether the active policies at two moments differ. -/
def activeChanged (s : PolicySource) (before now : Timestamp) : Except Fault Bool := do
  let previous ← s.activeIds before
  let current ← s.activeIds now
  return setChanged previous current

/-- The decision at a moment, after the recorded last dispatch. -/
def status (s : PolicySource) (last : Except Fault (Option Timestamp)) (now : Timestamp) :
    Except Fault DispatchStatus := do
  let last ← last
  let temporal ← s.hasTimeWindows
  let changed : Option Bool ← match last with
    | some before =>
      if temporal then do
        let changed ← s.activeChanged before now
        pure (some changed)
      else pure none
    | none => pure none
  return ⟨last, temporal, changed, decideState last temporal (changed.getD false)⟩

end PolicySource

end TrafficWarden
