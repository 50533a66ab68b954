import TrafficWarden.Calendar.Timestamp

/-!
# Spans of time

The whole seconds between two timestamps, and how they are told: in years, months, days, hours,
minutes and seconds, of which those that are none are left out.
-/

namespace TrafficWarden.Calendar

namespace TimeOfDay

/-- The length of the leap second that a time of day lies in, if it lies in one. -/
def leap (t : TimeOfDay) : Nat := if nanosPerSecond ≤ t.second.nanos.val then 1 else 0

/-- The leap second that counts between two times of day: one that lies before the later of
them. -/
def leapBetween (before after : TimeOfDay) : Int :=
  if before.seconds < after.seconds then before.leap
  else if after.seconds < before.seconds then -after.leap
  else 0

end TimeOfDay

def Timestamp.nanosTo (before after : Timestamp) : Int :=
  (after.epochSeconds - before.epochSeconds + TimeOfDay.leapBetween before.time after.time) *
      nanosPerSecond +
    (after.time.second.nanos.val - before.time.second.nanos.val)

def Timestamp.secondsTo (before after : Timestamp) : Int :=
  (before.nanosTo after).tdiv nanosPerSecond

/-- An amount with its unit, which takes an `s` for more than one where it is `plural`. -/
def amountText (n : Nat) (unit : String) (plural : Bool) : Option String :=
  if n = 0 then none
  else some (toString n ++ unit ++ (if plural && 1 < n then "s" else ""))

def yearSeconds : Nat := 31557600

def monthSeconds : Nat := 2630016

def spanText (seconds : Nat) : String :=
  let months := seconds % yearSeconds
  let days := months % monthSeconds
  let day := days % 86400
  let amounts := [
    amountText (seconds / yearSeconds) "year" true,
    amountText (months / monthSeconds) "month" true,
    amountText (days / 86400) "day" true,
    amountText (day / 3600) "h" false,
    amountText (day % 3600 / 60) "m" false,
    amountText (day % 60) "s" false].filterMap id
  if amounts.isEmpty then "0s" else " ".intercalate amounts

end TrafficWarden.Calendar
