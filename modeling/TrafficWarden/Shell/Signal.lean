import TrafficWarden.Text.Numeral

/-!
# How processes end

A process exits with a status of one byte, or is ended by a signal.
-/

namespace TrafficWarden.Shell

inductive Ending where
  | exited (status : Nat)
  | killed (signal : Nat)
deriving DecidableEq, Repr

/-- The names of the signals from number 1 on. -/
def signalNames : List String := [
  "HUP", "INT", "QUIT", "ILL", "TRAP", "ABRT", "BUS", "FPE", "KILL", "USR1", "SEGV", "USR2", "PIPE",
  "ALRM", "TERM", "STKFLT", "CHLD", "CONT", "STOP", "TSTP", "TTIN", "TTOU", "URG", "XCPU", "XFSZ",
  "VTALRM", "PROF", "WINCH", "IO", "PWR", "SYS"]

def signalName? (n : Nat) : Option String :=
  match n with
  | 0 => none
  | n + 1 => signalNames[n]?

/-- The signal of a number or a name, with or without its first three letters. -/
def signal? (s : String) : Option Nat :=
  match Text.readInteger .uint16 s.toList with
  | .ok n => some n.toNat
  | .error _ =>
    let name := if s.startsWith "SIG" then String.ofList (s.toList.drop 3) else s
    (signalNames.findIdx? (· == name)).map (· + 1)

/-- Signals that do not end a process that takes no notice of them. -/
def isHarmless (signal : Nat) : Bool := [0, 17, 18, 19, 20, 21, 22, 23, 28].contains signal

def Ending.isSuccess (e : Ending) : Bool := e = .exited 0

def Ending.text : Ending → String
  | .exited status => "exit status: " ++ toString status
  | .killed signal =>
    "signal: " ++ toString signal ++
      match signalName? signal with
      | some name => " (SIG" ++ name ++ ")"
      | none => ""

end TrafficWarden.Shell
