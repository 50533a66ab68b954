import TrafficWarden.Address.Mac
import TrafficWarden.Calendar.Reader
import TrafficWarden.Fault

/-!
# Policies

A policy blocks, limits or prioritizes traffic, always or in weekly windows of time. Its targets
say which traffic it concerns.
-/

namespace TrafficWarden

open Calendar

inductive Priority where
  | high
  | normal
  | low
deriving DecidableEq, Repr

namespace Priority

/-- The tier as a number, lower for a higher priority. -/
def value : Priority → Int
  | .high => 1
  | .normal => 3
  | .low => 7

def ofValue? : Int → Option Priority
  | 1 => some .high
  | 3 => some .normal
  | 7 => some .low
  | _ => none

def name : Priority → String
  | .high => "high"
  | .normal => "normal"
  | .low => "low"

theorem ofValue?_eq_some_iff (n : Int) (p : Priority) : ofValue? n = some p ↔ n = p.value := by
  unfold ofValue?
  split <;> cases p <;> simp_all [value]

end Priority

/-- The side of a flow that a target describes. -/
inductive Role where
  | source
  | destination
deriving DecidableEq, Repr

def Role.name : Role → String
  | .source => "source"
  | .destination => "destination"

/-- An endpoint that belongs to a policy. Its MAC address counts whatever its role is. -/
structure Target where
  id : EntityId
  policy : EntityId
  role : Role
  trafficClass : Option EntityId
  mac : Option MacAddress
deriving DecidableEq, Repr

/-- A weekly range of time. It may be empty and cannot end before it starts. -/
structure TimeWindow where
  weekday : Weekday
  start : TimeOfDay
  stop : TimeOfDay
  start_le_stop : start ≤ stop
deriving DecidableEq, Repr

namespace TimeWindow

def of? (weekday : Weekday) (start stop : TimeOfDay) : Option TimeWindow :=
  if h : start ≤ stop then some ⟨weekday, start, stop, h⟩ else none

/-- What is said of a window that would end before it starts. -/
def complaint (start stop : TimeOfDay) : String :=
  "window starts at " ++ start.text ++ " but ends at " ++ stop.text

/-- A window holds the times of its weekday from its start up to, and without, its end. -/
def contains (w : TimeWindow) (moment : Timestamp) : Bool :=
  moment.date.weekday = w.weekday && w.start ≤ moment.time && moment.time < w.stop

end TimeWindow

/-- A policy. Caps are in kbit per second. -/
structure Policy where
  id : EntityId
  name : String
  description : Option String
  enabled : Bool
  priority : Option Priority
  upload : Option UInt32
  download : Option UInt32
  windows : List TimeWindow
deriving DecidableEq, Repr

namespace Policy

def hasWindows (p : Policy) : Bool := !p.windows.isEmpty

/-- A policy without caps and priority blocks its traffic. -/
def isBlocking (p : Policy) : Bool := p.upload.isNone && p.download.isNone && p.priority.isNone

/-- A policy is active when it is enabled and has no window or is inside one of them. -/
def isActive (p : Policy) (moment : Timestamp) : Bool :=
  p.enabled && (p.windows.isEmpty || p.windows.any (·.contains moment))

end Policy

end TrafficWarden
