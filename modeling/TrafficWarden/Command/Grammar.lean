import TrafficWarden.Command.Request

/-!
# The grammar of command lines

A command line is a way through levels: the program, perhaps a group of commands, and a command.
Each level has its own options, in a long and perhaps in a short form, beside those of all levels.
-/

namespace TrafficWarden

inductive Switch where
  | config
  | catalog
  | script
  | outside
  | inside
  | output
  | color
  | verbose
  | quiet
  | logJson
  | help
  | version
  | active
  | moment
  | force
  | dryRun
  | interval
  | overwrite
deriving DecidableEq, Repr

namespace Switch

def long : Switch → String
  | config => "config"
  | catalog => "catalog"
  | script => "script"
  | outside => "outside"
  | inside => "inside"
  | output => "output"
  | color => "color"
  | verbose => "verbose"
  | quiet => "quiet"
  | logJson => "log-json"
  | help => "help"
  | version => "version"
  | active => "active"
  | moment => "at"
  | force => "force"
  | dryRun => "dry-run"
  | interval => "interval"
  | overwrite => "force"

/-- The letter of a switch, if it has one. -/
def letter? : Switch → Option Char
  | output => some 'o'
  | verbose => some 'v'
  | quiet => some 'q'
  | help => some 'h'
  | version => some 'V'
  | force => some 'f'
  | dryRun => some 'n'
  | interval => some 'i'
  | _ => none

def takesValue : Switch → Bool
  | config => true
  | catalog => true
  | script => true
  | outside => true
  | inside => true
  | output => true
  | color => true
  | moment => true
  | interval => true
  | _ => false

/-- The switches of every level. -/
def common : List Switch :=
  [config, catalog, script, outside, inside, output, color, verbose, quiet, logJson, help, version]

end Switch

/-- How many words a level takes beside its options. -/
inductive Slots where
  | none
  | one
  | many
deriving DecidableEq, Repr

inductive Level where
  | program
  | policies
  | listPolicies
  | showPolicy
  | compile
  | status
  | dispatch
  | watch
  | settings
  | showSettings
  | settingsPath
  | initSettings
  | completions
deriving DecidableEq, Repr

namespace Level

/-- The commands of a level, by all their names. -/
def commands : Level → List (String × Level)
  | program => [("policies", policies), ("pol", policies), ("p", policies), ("compile", compile),
      ("status", status), ("dispatch", dispatch), ("watch", watch), ("config", settings),
      ("completions", completions)]
  | policies => [("list", listPolicies), ("ls", listPolicies), ("show", showPolicy)]
  | settings => [("show", showSettings), ("path", settingsPath), ("init", initSettings)]
  | _ => []

/-- Whether a level needs one of its commands. -/
def isGroup (l : Level) : Bool := !l.commands.isEmpty

def command? (l : Level) (word : String) : Option Level := l.commands.lookup word

/-- The switches of one level alone. -/
def ownSwitches : Level → List Switch
  | listPolicies => [.active, .moment]
  | compile => [.moment]
  | status => [.moment]
  | dispatch => [.force, .dryRun]
  | watch => [.interval]
  | initSettings => [.overwrite]
  | _ => []

def switches (l : Level) : List Switch := Switch.common ++ l.ownSwitches

def ofLong? (l : Level) (name : String) : Option Switch := l.switches.find? (·.long = name)

def ofLetter? (l : Level) (c : Char) : Option Switch := l.switches.find? (·.letter? = some c)

def slots : Level → Slots
  | showPolicy => .one
  | compile => .many
  | completions => .one
  | _ => .none

end Level

/-- A word of a command line, by its dashes. -/
inductive Word where
  | plain (text : String)
  | escape
  | long (name : String) (value : Option String)
  | letters (cs : List Char)
deriving DecidableEq, Repr

/-- A long option with what follows the first equals sign. -/
def Word.ofLong (cs : List Char) : Word :=
  let name := String.ofList (cs.takeWhile (· ≠ '='))
  match cs.dropWhile (· ≠ '=') with
  | [] => .long name none
  | _ :: value => .long name (some (String.ofList value))

/-- The kind of a word. A single dash is no option. -/
def Word.of (text : String) : Word :=
  match text.toList with
  | ['-', '-'] => .escape
  | '-' :: '-' :: cs => .ofLong cs
  | ['-'] => .plain text
  | '-' :: cs => .letters cs
  | _ => .plain text

end TrafficWarden
