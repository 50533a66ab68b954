import TrafficWarden.Fault

/-!
# Requests

What a command line asks for: one command, and the options that every command has.
-/

namespace TrafficWarden

inductive OutputFormat where
  | table
  | json
  | jsonCompact
  | yaml
  | plain
deriving DecidableEq, Repr

namespace OutputFormat

def all : List OutputFormat := [table, json, jsonCompact, yaml, plain]

def name : OutputFormat → String
  | table => "table"
  | json => "json"
  | jsonCompact => "json-compact"
  | yaml => "yaml"
  | plain => "plain"

def ofName? (name : String) : Option OutputFormat := all.find? (·.name = name)

theorem ofName?_name (f : OutputFormat) : ofName? f.name = some f := by
  cases f <;> decide

end OutputFormat

/-- When words are colored. -/
inductive ColorMode where
  | auto
  | always
  | never
deriving DecidableEq, Repr

namespace ColorMode

def all : List ColorMode := [auto, always, never]

def name : ColorMode → String
  | auto => "auto"
  | always => "always"
  | never => "never"

def ofName? (name : String) : Option ColorMode := all.find? (·.name = name)

end ColorMode

/-- A shell that completes command lines. -/
inductive CompletionShell where
  | bash
  | elvish
  | fish
  | powershell
  | zsh
deriving DecidableEq, Repr

namespace CompletionShell

def all : List CompletionShell := [bash, elvish, fish, powershell, zsh]

def name : CompletionShell → String
  | bash => "bash"
  | elvish => "elvish"
  | fish => "fish"
  | powershell => "powershell"
  | zsh => "zsh"

def ofName? (name : String) : Option CompletionShell := all.find? (·.name = name)

end CompletionShell

/-- The options of every command. Those that are absent leave the settings as they are. -/
structure Options where
  config : Option String
  catalog : Option String
  script : Option String
  outside : Option String
  inside : Option String
  output : OutputFormat
  color : ColorMode
  verbosity : Nat
  quiet : Bool
  logJson : Bool
deriving DecidableEq, Repr

/-- What the program is asked to do. -/
inductive Verb where
  | listPolicies (active : Bool) (moment : Option String)
  | showPolicy (id : EntityId)
  | compile (ids : List EntityId) (moment : Option String)
  | status (moment : Option String)
  | dispatch (force dryRun : Bool)
  | watch (interval : Option UInt64)
  | showSettings
  | settingsPath
  | initSettings (force : Bool)
  | completions (shell : CompletionShell)
deriving DecidableEq, Repr

structure Request where
  options : Options
  verb : Verb
deriving DecidableEq, Repr

end TrafficWarden
