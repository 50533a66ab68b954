import TrafficWarden.Calendar.Date
import TrafficWarden.Text.Numeral

/-!
# Times of day and timestamps

Times of day are told to the nanosecond. A second may be followed by a leap second, which is later
than all of that second and earlier than the next one. A timestamp is a date and a time of day,
without a time zone.
-/

namespace TrafficWarden.Calendar

def nanosPerSecond : Nat := 1000000000

/-- A moment of a minute. With `nanosPerSecond` nanoseconds or more it lies in the leap second that
follows its second. -/
structure Second where
  number : Fin 60
  nanos : Fin 2000000000
deriving DecidableEq, Repr

namespace Second

/-- The start of a second. The 60th is the leap second of the minute. -/
def ofNat (n : Nat) : Second :=
  if n < 60 then ⟨Fin.ofNat 60 n, 0⟩ else ⟨59, Fin.ofNat 2000000000 nanosPerSecond⟩

instance (n : Nat) : OfNat Second n := ⟨ofNat n⟩

end Second

structure TimeOfDay where
  hour : Fin 24
  minute : Fin 60
  second : Second
deriving DecidableEq, Repr

namespace TimeOfDay

/-- Seconds since midnight, where a leap second counts with the second before it. -/
def seconds (t : TimeOfDay) : Nat :=
  (t.hour.val * 60 + t.minute.val) * 60 + t.second.number.val

/-- The place of a time in the order of a day. -/
def rank (t : TimeOfDay) : Nat := 2 * nanosPerSecond * t.seconds + t.second.nanos.val

instance : LE TimeOfDay := ⟨fun a b => a.rank ≤ b.rank⟩
instance : LT TimeOfDay := ⟨fun a b => a.rank < b.rank⟩
instance (a b : TimeOfDay) : Decidable (a ≤ b) := inferInstanceAs (Decidable (a.rank ≤ b.rank))
instance (a b : TimeOfDay) : Decidable (a < b) := inferInstanceAs (Decidable (a.rank < b.rank))

/-- The time as `HH:MM:SS`, without decimals. -/
def wholeText (t : TimeOfDay) : String :=
  Text.padded 2 t.hour.val ++ ":" ++ Text.padded 2 t.minute.val ++ ":" ++
    Text.padded 2 (t.second.number.val + t.second.nanos.val / nanosPerSecond)

/-- The decimals of a second, in as many groups of three as it takes. -/
def decimals (nanos : Nat) : String :=
  if nanos = 0 then ""
  else if nanos % 1000000 = 0 then "." ++ Text.padded 3 (nanos / 1000000)
  else if nanos % 1000 = 0 then "." ++ Text.padded 6 (nanos / 1000)
  else "." ++ Text.padded 9 nanos

/-- The time as `HH:MM:SS`, with the decimals of its second if it has any. -/
def text (t : TimeOfDay) : String :=
  t.wholeText ++ decimals (t.second.nanos.val % nanosPerSecond)

end TimeOfDay

structure Timestamp where
  date : Date
  time : TimeOfDay
deriving DecidableEq, Repr

/-- Years from 0 to 9999 have four digits, and all others a sign and at least four digits. -/
def yearText (year : Int) : String :=
  if 0 ≤ year && year ≤ 9999 then Text.padded 4 year.toNat
  else if year < 0 then "-" ++ Text.padded 4 (-year).toNat
  else "+" ++ Text.padded 4 year.toNat

namespace Date

/-- The date as `YYYY-MM-DD`. -/
def text (d : Date) : String :=
  yearText d.year ++ "-" ++ Text.padded 2 d.month ++ "-" ++ Text.padded 2 d.day

end Date

namespace Timestamp

/-- The timestamp from which seconds are counted. -/
def epoch : Timestamp := ⟨⟨1970, 1, 1, by decide⟩, ⟨0, 0, 0⟩⟩

instance : Inhabited Timestamp := ⟨epoch⟩

/-- The timestamp as `YYYY-MM-DD HH:MM:SS`. -/
def text (t : Timestamp) : String := t.date.text ++ " " ++ t.time.wholeText

/-- The timestamp as `YYYY-MM-DDTHH:MM:SS`, with the decimals of its second if it has any. -/
def isoText (t : Timestamp) : String := t.date.text ++ "T" ++ t.time.text

/-- Seconds since 1970-01-01 00:00:00. -/
def epochSeconds (t : Timestamp) : Int := t.date.epochDays * 86400 + t.time.seconds

/-- The timestamp that lies the given seconds and nanoseconds after 1970-01-01 00:00:00. -/
def ofEpoch? (seconds : Int) (nanos : Nat) : Option Timestamp :=
  let s := (seconds % 86400).toNat
  (Date.ofEpochDays? (seconds / 86400)).map fun date =>
    ⟨date, Fin.ofNat 24 (s / 3600), Fin.ofNat 60 (s / 60 % 60),
      Fin.ofNat 60 (s % 60), Fin.ofNat 2000000000 nanos⟩

end Timestamp

end TrafficWarden.Calendar
