import TrafficWarden.Files.Tree
import TrafficWarden.Shell.Signal
import TrafficWarden.Shell.Statement
import TrafficWarden.Text.Utf8

/-!
# The machine that runs a script

A machine has a file tree, the variables and arguments of a script, and what the script has written
so far to its two outputs.
-/

namespace TrafficWarden.Shell

open Files

/-- Where an output goes: to an output of the script, to the end of a file, or nowhere. -/
inductive Sink where
  | output
  | errors
  | file (path : String)
  | nowhere
deriving DecidableEq, Repr

structure Machine where
  files : Tree
  now : Calendar.Timestamp
  script : String
  arguments : List String
  bindings : List (String × String)
  /-- The status of the last command. -/
  status : Nat
  /-- Whether a failing command ends the script. -/
  strict : Bool
  ending : Option Ending
  input : List UInt8
  output : List UInt8
  errors : List UInt8
  outputTo : Sink
  errorsTo : Sink

namespace Machine

def start (files : Tree) (now : Calendar.Timestamp) (script : String) : Machine where
  files := files
  now := now
  script := script
  arguments := []
  bindings := [("IFS", " \t\n"), ("PWD", "/"), ("HOME", "/"), ("PATH", "/usr/bin:/bin")]
  status := 0
  strict := false
  ending := none
  input := []
  output := []
  errors := []
  outputTo := .output
  errorsTo := .errors

/-- The number of the process of a script. -/
def processId : Nat := 4242

def withStatus (m : Machine) (status : Nat) : Machine := { m with status }

/-- Ends the script. -/
def finish (m : Machine) (e : Ending) : Machine := { m with ending := some e }

/-- Writes bytes to a sink. -/
def deliver (m : Machine) (bytes : List UInt8) : Sink → Machine
  | .output => { m with output := m.output ++ bytes }
  | .errors => { m with errors := m.errors ++ bytes }
  | .nowhere => m
  | .file path =>
    let before := ((m.files.read path).toOption).getD ""
    match m.files.write path (before ++ Text.decode bytes) m.now with
    | .ok files => { m with files }
    | .error _ => m

def put (m : Machine) (bytes : List UInt8) : Machine := m.deliver bytes m.outputTo

def say (m : Machine) (s : String) : Machine := m.put (Text.encode s)

def complain (m : Machine) (s : String) : Machine := m.deliver (Text.encode s) m.errorsTo

def lookup (m : Machine) (name : String) : Option String :=
  (m.bindings.find? (·.1 = name)).map (·.2)

def assign (m : Machine) (name value : String) : Machine :=
  { m with bindings := (name, value) :: m.bindings.filter (·.1 ≠ name) }

/-- The value of a parameter by its name alone. -/
def named (m : Machine) (name : String) : Option String :=
  match name with
  | "?" => some (toString m.status)
  | "$" => some (toString processId)
  | "#" => some (toString m.arguments.length)
  | "@" => some (" ".intercalate m.arguments)
  | "*" => some (" ".intercalate m.arguments)
  | "-" => some (if m.strict then "e" else "")
  | "!" => none
  | "0" => some m.script
  | name =>
    match Text.readInteger .uint16 name.toList with
    | .ok n => m.arguments[n.toNat - 1]?
    | .error _ => m.lookup name

/-- The value of a parameter; a text after a dash stands in for a missing one. -/
def parameter (m : Machine) (spec : String) : String :=
  let name := spec.toList.takeWhile isNameChar
  match spec.toList.drop name.length with
  | '-' :: standIn => (m.named (String.ofList name)).getD (String.ofList standIn)
  | ':' :: '-' :: standIn =>
    match m.named (String.ofList name) with
    | some v => if v = "" then String.ofList standIn else v
    | none => String.ofList standIn
  | _ =>
    match spec.toList with
    | '#' :: c :: rest => toString ((m.named (String.ofList (c :: rest))).getD "").length
    | _ => (m.named spec).getD ""

end Machine

end TrafficWarden.Shell
