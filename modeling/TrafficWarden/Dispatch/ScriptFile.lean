import TrafficWarden.Dispatch.Cycle
import TrafficWarden.Shell.Run

/-!
# The script file

The script of the last successful dispatch is kept in a file, and the time of its last change is
the record of that dispatch. A script is staged in a file beside it, run from there, and takes the
place of the last one only when it has succeeded.
-/

namespace TrafficWarden

open Calendar Files Shell

/-- Where the script is kept, and what runs it. -/
structure ScriptFile where
  path : String
  shell : String
deriving DecidableEq, Repr

/-- What the machine refuses, beside what follows from its files. A refused write may leave a part
of the text behind. -/
structure Hazards where
  write : Option (IoFault × Option String)
  permit : Option IoFault
  replace : Option IoFault
  remove : Option IoFault
deriving DecidableEq, Repr

namespace Hazards

def none : Hazards := ⟨.none, .none, .none, .none⟩

instance : Inhabited Hazards := ⟨none⟩

end Hazards

def unlessRefused {α : Type} (refusal : Option IoFault) (result : Except IoFault α) :
    Except IoFault α :=
  match refusal with
  | some cause => .error cause
  | none => result

namespace ScriptFile

def stagePath (s : ScriptFile) : String := s.path ++ ".tmp"

def scriptMode : Nat := 0o755

def unwritable (s : ScriptFile) (cause : IoFault) : Fault := .scriptUnwritable s.path cause

/-- When the last dispatch was; there was none if there is no file. -/
def last (s : ScriptFile) (files : Tree) : Except Fault (Option Timestamp) :=
  match files.lastChange s.path with
  | .ok moment => .ok (some moment)
  | .error .noSuchFile => .ok none
  | .error cause => .error (.io cause)

def writeStage (s : ScriptFile) (hazards : Hazards) (now : Timestamp) (files : Tree)
    (script : String) : Except IoFault Unit × Tree :=
  match hazards.write with
  | some (cause, part) =>
    (.error cause, match part with
      | some text => ((files.write s.stagePath text now).toOption).getD files
      | none => files)
  | none =>
    match files.write s.stagePath script now with
    | .ok files => (.ok (), files)
    | .error cause => (.error cause, files)

def stage (s : ScriptFile) (hazards : Hazards) (now : Timestamp) (files : Tree)
    (script : String) : Except Fault Unit × Tree :=
  match s.writeStage hazards now files script with
  | (.error cause, files) => (.error (s.unwritable cause), files)
  | (.ok (), files) =>
    match unlessRefused hazards.permit (files.setMode s.stagePath scriptMode) with
    | .ok files => (.ok (), files)
    | .error cause => (.error (s.unwritable cause), files)

def failure? (s : ScriptFile) : Except IoFault Execution → Option Fault
  | .error cause => some (.scriptFailed ("could not start " ++ s.shell) cause.message)
  | .ok e =>
    if e.ending.isSuccess then none
    else some (.scriptFailed e.ending.text (Text.trimmed e.errors))

def clear (s : ScriptFile) (hazards : Hazards) (files : Tree) : Tree × List Warning :=
  match unlessRefused hazards.remove (files.remove s.stagePath) with
  | .ok files => (files, [])
  | .error cause => (files, [.stagedScriptLeft s.stagePath cause])

/-- Stages a script, runs it, and keeps it if it succeeds. -/
def apply (s : ScriptFile) (program : Program) (hazards : Hazards) (now : Timestamp) (files : Tree)
    (script : String) : Except Fault Unit × Tree × List Warning :=
  match s.stage hazards now files script with
  | (.error fault, files) => (.error fault, files, [])
  | (.ok (), files) =>
    let (result, files) := program files now s.stagePath
    match s.failure? result with
    | some fault =>
      let (files, warnings) := s.clear hazards files
      (.error fault, files, warnings)
    | none =>
      match unlessRefused hazards.replace (files.rename s.stagePath s.path) with
      | .ok files => (.ok (), files, [])
      | .error cause => (.error (s.unwritable cause), files, [])

/-- The runner that keeps scripts in a file, at a moment. -/
def runner (s : ScriptFile) (now : Timestamp) : Runner Tree where
  last files := s.last files
  apply files script := s.apply (Shell.program s.shell) .none now files script

end ScriptFile

end TrafficWarden
