import TrafficWarden.Fault

/-!
# Warnings

What is reported about rows, policies and scripts that are left aside while the work goes on.
-/

namespace TrafficWarden

inductive Warning where
  /-- A traffic class with a bad row is left out of the store. -/
  | classDropped (id : EntityId) (name : String) (fault : Fault)
  /-- A window of a policy that does not exist. -/
  | windowDropped (id : EntityId) (policy : EntityId)
  /-- A target of a policy that does not exist. -/
  | targetDropped (id : EntityId) (policy : EntityId)
  /-- A policy with a bad row is left out of the store. -/
  | policyRejected (id : EntityId) (name : String) (fault : Fault)
  /-- A policy whose parameters are not to be had is left out of the plan. -/
  | policySkipped (id : EntityId) (name : String) (fault : Fault)
  | cycleFailed (fault : Fault)
  /-- The staged script of a failed dispatch could not be removed. -/
  | stagedScriptLeft (path : String) (cause : IoFault)
deriving DecidableEq, Repr

def Warning.message : Warning → String
  | .classDropped .. => "dropping traffic class"
  | .windowDropped .. => "dropping orphan time window"
  | .targetDropped .. => "dropping orphan target"
  | .policyRejected .. => "skipping policy"
  | .policySkipped .. => "skipping policy"
  | .cycleFailed .. => "dispatch cycle failed"
  | .stagedScriptLeft .. => "could not remove failed script"

end TrafficWarden
