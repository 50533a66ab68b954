import TrafficWarden.Settings.Basic

/-!
# Faults of commands

How a command fails: what is said, under which code, with which advice, and with which exit code
the program ends.
-/

namespace TrafficWarden

inductive CommandFault where
  | dispatch (fault : Fault)
  | settings (fault : SettingsFault)
  | invalidArgument (name reason : String)
  /-- The interval of the settings is too large to be shown. -/
  | unrenderable
deriving DecidableEq, Repr

namespace CommandFault

def faultMessage : Fault → String
  | .storeUnavailable _ => "Policy catalog unavailable"
  | .notFound kind id => kind.name ++ " '" ++ id.text ++ "' not found"
  | .invalid kind id reason => "Invalid " ++ kind.name ++ " " ++ id.text ++ ": " ++ reason
  | .scriptUnwritable path _ => "Could not write dispatch script " ++ path
  | .scriptFailed status _ => "Dispatch script failed (" ++ status ++ ")"
  | .io cause => cause.message

def message : CommandFault → String
  | .dispatch fault => faultMessage fault
  | .settings fault => fault.message
  | .invalidArgument name reason => "Invalid value for " ++ name ++ ": " ++ reason
  | .unrenderable => "Could not render TOML: out-of-range value for u64 type"

/-- What a fault is known by. -/
def code? : CommandFault → Option String
  | .dispatch (.storeUnavailable _) => some "netcop::store"
  | .dispatch (.notFound ..) => some "netcop::not_found"
  | .dispatch (.invalid ..) => some "netcop::invalid_data"
  | .dispatch (.scriptUnwritable ..) => some "netcop::script_write"
  | .dispatch (.scriptFailed ..) => some "netcop::script_failed"
  | .dispatch (.io _) => none
  | .settings _ => some "netcop::config"
  | .invalidArgument .. => some "netcop::validation"
  | .unrenderable => some "netcop::toml"

/-- The command that shows what the catalog holds of a kind. -/
def listingCommand : EntityKind → String
  | .policy => "policies list"
  | _ => "policies show <ID>"

/-- What to do about a fault. -/
def advice? : CommandFault → Option String
  | .dispatch (.storeUnavailable reason) =>
    some (reason ++
      "\nPoint [catalog] path in the config at a readable .toml, .json or .yaml file,\n" ++
      "or pass --catalog.")
  | .dispatch (.notFound kind _) =>
    some ("Run: netcop " ++ listingCommand kind ++ " to see what the catalog holds")
  | .dispatch (.scriptUnwritable ..) =>
    some "Check that the directory exists and is writable, or set [dispatch] script_path."
  | .dispatch (.scriptFailed _ errors) =>
    some (errors ++
      "\nThe script is kept on disk; run it by hand to find the failing command.")
  | .settings _ => some "Inspect the effective settings with: netcop config show"
  | _ => none

def exitCode : CommandFault → Nat
  | .dispatch (.notFound ..) => 4
  | .dispatch (.storeUnavailable _) => 5
  | .dispatch (.scriptUnwritable ..) => 6
  | .dispatch (.scriptFailed ..) => 6
  | .dispatch _ => 1
  | .settings _ => 7
  | .invalidArgument .. => 2
  | .unrenderable => 1

end CommandFault

end TrafficWarden
