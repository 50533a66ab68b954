import TrafficWarden.OrderedSet
import TrafficWarden.Text.Blank
import TrafficWarden.Text.Numeral

/-!
# Faults

What can go wrong between the store of policies and the dispatch of a script, and how it is
worded.
-/

namespace TrafficWarden

/-- The identity of a policy, a target or a traffic class. -/
structure EntityId where
  value : Int
deriving DecidableEq, Repr

namespace EntityId

instance : Ranked EntityId := ⟨EntityId.value, fun ⟨_⟩ ⟨_⟩ h => congrArg EntityId.mk h⟩

def text (id : EntityId) : String := toString id.value

/-- Reads an identity of 64 bits, with blanks around it. -/
def read (raw : String) : Except Text.NumeralFault EntityId :=
  (Text.readInteger .int64 (Text.trim raw.toList)).map EntityId.mk

end EntityId

/-- A refusal of the file system or of the start of a program. -/
inductive IoFault where
  | noSuchFile
  | execFormat
  | permissionDenied
  | fileExists
  | notADirectory
  | isADirectory
  | nameTooLong
  | nulInName
  | other (text : String)
deriving DecidableEq, Repr

def IoFault.message : IoFault → String
  | .noSuchFile => "No such file or directory (os error 2)"
  | .execFormat => "Exec format error (os error 8)"
  | .permissionDenied => "Permission denied (os error 13)"
  | .fileExists => "File exists (os error 17)"
  | .notADirectory => "Not a directory (os error 20)"
  | .isADirectory => "Is a directory (os error 21)"
  | .nameTooLong => "File name too long (os error 36)"
  | .nulInName => "file name contained an unexpected NUL byte"
  | .other text => text

/-- What an identity belongs to. -/
inductive EntityKind where
  | policy
  | trafficClass
  | cidr
  | port
deriving DecidableEq, Repr

def EntityKind.name : EntityKind → String
  | .policy => "policy"
  | .trafficClass => "traffic class"
  | .cidr => "cidr"
  | .port => "port"

inductive Fault where
  | storeUnavailable (reason : String)
  | notFound (kind : EntityKind) (id : EntityId)
  | invalid (kind : EntityKind) (id : EntityId) (reason : String)
  | scriptUnwritable (path : String) (cause : IoFault)
  | scriptFailed (status : String) (stderr : String)
  | io (cause : IoFault)
deriving DecidableEq, Repr

def Fault.message : Fault → String
  | .storeUnavailable reason => "Policy store unavailable: " ++ reason
  | .notFound kind id => "Entity not found: " ++ kind.name ++ " with id " ++ id.text
  | .invalid kind id reason => "Invalid " ++ kind.name ++ " " ++ id.text ++ ": " ++ reason
  | .scriptUnwritable path cause =>
    "Cannot write dispatch script " ++ path ++ ": " ++ cause.message
  | .scriptFailed status stderr => "Dispatch script exited with " ++ status ++ ": " ++ stderr
  | .io cause => "IO error: " ++ cause.message

/-- Whether a fault concerns one entity and leaves the others usable. -/
def Fault.isLocal : Fault → Bool
  | .notFound .. => true
  | .invalid .. => true
  | _ => false

end TrafficWarden
