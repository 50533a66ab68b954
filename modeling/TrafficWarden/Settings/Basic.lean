import TrafficWarden.Plan

/-!
# Settings

What can be configured: the interfaces of the gateway, where the dispatch script is kept and what
runs it, how often a watch dispatches, and which file holds the catalog.
-/

namespace TrafficWarden

structure Settings where
  interfaces : Interfaces
  scriptPath : String
  shell : String
  interval : UInt64
  catalogPath : String
deriving DecidableEq, Repr

namespace Settings

/-- The settings of a fresh installation. The script is kept where it does not survive a restart,
since the rules do not either. -/
def standard : Settings :=
  ⟨.standard, "/tmp/netcop-despachar-politicas", "/bin/sh", 60, "/etc/netcop/catalog.toml"⟩

instance : Inhabited Settings := ⟨standard⟩

end Settings

/-- A setting that can be refused. -/
inductive SettingName where
  | outside
  | inside
  | scriptPath
  | shell
  | interval
deriving DecidableEq, Repr

def SettingName.name : SettingName → String
  | .outside => "interfaces.outside"
  | .inside => "interfaces.inside"
  | .scriptPath => "dispatch.script_path"
  | .shell => "dispatch.shell"
  | .interval => "dispatch.interval_secs"

/-- What is wrong with settings or with their file. -/
inductive SettingsFault where
  | invalid (setting : SettingName) (reason : String)
  | notFound (path : String)
  | alreadyExists (path : String)
  | unserializable
  | unreadable
  | io (cause : IoFault)
deriving DecidableEq, Repr

def SettingsFault.message : SettingsFault → String
  | .invalid setting reason => "invalid " ++ setting.name ++ ": " ++ reason
  | .notFound path => "config file not found: " ++ path
  | .alreadyExists path => "config file already exists: " ++ path
  | .unserializable => "failed to serialize config: out-of-range value for u64 type"
  | .unreadable => "config loading failed"
  | .io cause => "IO error: " ++ cause.message

end TrafficWarden
