import TrafficWarden.Command.Grammar
import TrafficWarden.Settings.Environment

/-!
# Reading command lines

Words are read one by one. The value of an option, and the words beside options, are judged when
the next option or word of another kind is there, or when the level ends; a level ends after the
levels below it. Below its program an option may be given again, and the lowest one counts. What
the environment says counts where no level has the option, and must be right even if only one level
lacks it.
-/

namespace TrafficWarden

/-- Why a command line leads to no command: it asks for help, or it is wrong. -/
inductive Stop where
  | help
  | usage
deriving DecidableEq, Repr

def Stop.exitCode : Stop → Nat
  | .help => 0
  | .usage => 2

structure Given where
  config : Option String
  catalog : Option String
  script : Option String
  outside : Option String
  inside : Option String
  output : Option OutputFormat
  color : Option ColorMode
  verbosity : Nat
  quiet : Bool
  logJson : Bool
  active : Bool
  moment : Option String
  force : Bool
  dryRun : Bool
  interval : Option UInt64
  ids : List EntityId
  shell : Option CompletionShell
deriving DecidableEq, Repr, Inhabited

/-- A value that may be given once and must be right. -/
def once {α : Type} (before value : Option α) : Except Stop (Option α) :=
  match before, value with
  | none, some a => .ok (some a)
  | _, _ => .error .usage

/-- A flag that may be given once. -/
def raised (before : Bool) : Except Stop Bool := if before then .error .usage else .ok true

def pathValue? (s : String) : Option String := if s = "" then none else some s

def integerValue? (b : Text.Bounds) (s : String) : Option Int :=
  (Text.readInteger b s.toList).toOption

def secondsValue? (s : String) : Option UInt64 :=
  (integerValue? .uint64 s).map fun n => UInt64.ofNat n.toNat

def idValue? (s : String) : Option EntityId := (integerValue? .int64 s).map EntityId.mk

namespace Given

def setValue (g : Given) (s : Switch) (value : String) : Except Stop Given :=
  match s with
  | .config => return { g with config := ← once g.config (pathValue? value) }
  | .catalog => return { g with catalog := ← once g.catalog (pathValue? value) }
  | .script => return { g with script := ← once g.script (pathValue? value) }
  | .outside => return { g with outside := ← once g.outside (some value) }
  | .inside => return { g with inside := ← once g.inside (some value) }
  | .output => return { g with output := ← once g.output (OutputFormat.ofName? value) }
  | .color => return { g with color := ← once g.color (ColorMode.ofName? value) }
  | .moment => return { g with moment := ← once g.moment (some value) }
  | .interval => return { g with interval := ← once g.interval (secondsValue? value) }
  | _ => .error .usage

def setFlag (g : Given) (s : Switch) : Except Stop Given :=
  match s with
  | .verbose => .ok { g with verbosity := g.verbosity + 1 }
  | .quiet => return { g with quiet := ← raised g.quiet }
  | .logJson => return { g with logJson := ← raised g.logJson }
  | .active => return { g with active := ← raised g.active }
  | .force => return { g with force := ← raised g.force }
  | .dryRun => return { g with dryRun := ← raised g.dryRun }
  | .overwrite => return { g with force := ← raised g.force }
  | .help => .error .help
  | .version => .error .help
  | _ => .error .usage

def setWords (g : Given) (l : Level) (words : List String) : Except Stop Given :=
  match l, words with
  | .completions, [word] => return { g with shell := ← once g.shell (CompletionShell.ofName? word) }
  | _, _ =>
    match words.mapM idValue? with
    | some ids => .ok { g with ids := g.ids ++ ids }
    | none => .error .usage

/-- What is given on two levels, the lower one first. -/
def overlay (lower upper : Given) : Given where
  config := lower.config <|> upper.config
  catalog := lower.catalog <|> upper.catalog
  script := lower.script <|> upper.script
  outside := lower.outside <|> upper.outside
  inside := lower.inside <|> upper.inside
  output := lower.output <|> upper.output
  color := lower.color <|> upper.color
  verbosity := if lower.verbosity = 0 then upper.verbosity else lower.verbosity
  quiet := lower.quiet || upper.quiet
  logJson := lower.logJson || upper.logJson
  active := lower.active || upper.active
  moment := lower.moment <|> upper.moment
  force := lower.force || upper.force
  dryRun := lower.dryRun || upper.dryRun
  interval := lower.interval <|> upper.interval
  ids := lower.ids ++ upper.ids
  shell := lower.shell <|> upper.shell

end Given

/-- What was read and is not judged yet. -/
inductive Pending where
  | nothing
  | option (s : Switch) (value : Option String)
  | words (ws : List String)
deriving DecidableEq, Repr

structure Reading where
  level : Level
  given : Given
  pending : Pending
  /-- Whether its only word was read. -/
  filled : Bool
  /-- Whether no more options follow. -/
  escaped : Bool
deriving DecidableEq, Repr

namespace Reading

def start (l : Level) : Reading := ⟨l, default, .nothing, false, false⟩

def settle (r : Reading) : Except Stop Reading :=
  match r.pending with
  | .nothing => .ok r
  | .option _ none => .error .usage
  | .option s (some value) => do
    return { r with given := ← r.given.setValue s value, pending := .nothing }
  | .words ws => do
    return { r with given := ← r.given.setWords r.level ws, pending := .nothing }

def takePlain (r : Reading) (word : String) : Except Stop Reading :=
  match r.level.slots, r.pending with
  | .none, _ => .error .usage
  | .one, _ =>
    if r.filled then .error .usage
    else do return { ← r.settle with pending := .words [word], filled := true }
  | .many, .words ws => .ok { r with pending := .words (ws ++ [word]) }
  | .many, _ => do return { ← r.settle with pending := .words [word] }

def takeValue (r : Reading) (s : Switch) (value : String) : Except Stop Reading := do
  let r ← r.settle
  return { r with given := ← r.given.setValue s value }

/-- Takes an option whose value is the next word. -/
def awaitValue (r : Reading) (s : Switch) : Except Stop Reading := do
  return { ← r.settle with pending := .option s none }

def takeFlag (r : Reading) (s : Switch) : Except Stop Reading := do
  let r ← r.settle
  return { r with given := ← r.given.setFlag s }

def takeLong (r : Reading) (name : String) (value : Option String) : Except Stop Reading :=
  match r.level.ofLong? name, value with
  | none, _ => .error .usage
  | some s, none => if s.takesValue then r.awaitValue s else r.takeFlag s
  | some s, some v => if s.takesValue then r.takeValue s v else .error .usage

/-- Takes options by their letters. What follows the letter of an option that takes a value is that
value, with or without an equals sign before it. -/
def takeLetters : Reading → List Char → Except Stop Reading
  | r, [] => .ok r
  | r, c :: rest =>
    match r.level.ofLetter? c with
    | none => .error .usage
    | some s =>
      if s.takesValue then
        match rest with
        | [] => r.awaitValue s
        | '=' :: value => r.takeValue s (String.ofList value)
        | value => r.takeValue s (String.ofList value)
      else do takeLetters (← r.takeFlag s) rest

def take (r : Reading) (word : String) : Except Stop Reading :=
  if r.escaped then r.takePlain word
  else
    match Word.of word with
    | .escape => .ok { r with escaped := true }
    | .long name value => r.takeLong name value
    | .letters cs => r.takeLetters cs
    | .plain _ =>
      match r.pending with
      | .option s none => .ok { r with pending := .option s (some word) }
      | _ => r.takePlain word

/-- Whether the next word may be a command. -/
def expectsCommand (r : Reading) : Bool :=
  r.level.isGroup && !r.escaped &&
    match r.pending with
    | .option _ none => false
    | _ => true

end Reading

structure OptionVariables where
  config : Option String
  output : Option String
deriving DecidableEq, Repr

namespace OptionVariables

def ofEnvironment (environment : Settings.Environment) : OptionVariables :=
  ⟨environment.lookup "NETCOP_CONFIG", environment.lookup "NETCOP_OUTPUT"⟩

/-- Whether the variables are right where a level lacks the options. -/
def areValid (v : OptionVariables) (g : Given) : Bool :=
  (g.config.isSome || v.config.all fun s => (pathValue? s).isSome) &&
    (g.output.isSome || v.output.all fun s => (OutputFormat.ofName? s).isSome)

end OptionVariables

def Reading.finish (r : Reading) (defaults : OptionVariables) : Except Stop Given := do
  let r ← r.settle
  if defaults.areValid r.given then .ok r.given else .error .usage

/-- Whether words lead to a command that help can be asked for. The command for help has no
commands. -/
def leadsToHelp : Option Level → List String → Bool
  | _, [] => true
  | none, _ :: _ => false
  | some l, word :: rest =>
    if l.isGroup && word = "help" then leadsToHelp none rest
    else
      match l.command? word with
      | some child => leadsToHelp (some child) rest
      | none => false

/-- Reads a level and all levels below it. Gives the lowest one, and what they have. -/
def readLevel (defaults : OptionVariables) : Reading → List String → Except Stop (Level × Given)
  | r, [] => do
    let given ← r.finish defaults
    if r.level.isGroup then .error .usage else .ok (r.level, given)
  | r, word :: rest =>
    if r.expectsCommand && word = "help" then
      .error (if leadsToHelp (some r.level) rest then .help else .usage)
    else
      match if r.expectsCommand then r.level.command? word else none with
      | some child => do
        let (lowest, below) ← readLevel defaults (.start child) rest
        let given ← r.finish defaults
        return (lowest, below.overlay given)
      | none => do readLevel defaults (← r.take word) rest

def Level.verb (l : Level) (g : Given) : Except Stop Verb :=
  match l with
  | .program => .error .usage
  | .policies => .error .usage
  | .settings => .error .usage
  | .listPolicies => .ok (.listPolicies g.active g.moment)
  | .showPolicy =>
    match g.ids with
    | [id] => .ok (.showPolicy id)
    | _ => .error .usage
  | .compile => .ok (.compile g.ids g.moment)
  | .status => .ok (.status g.moment)
  | .dispatch => .ok (.dispatch g.force g.dryRun)
  | .watch => .ok (.watch g.interval)
  | .showSettings => .ok .showSettings
  | .settingsPath => .ok .settingsPath
  | .initSettings => .ok (.initSettings g.force)
  | .completions =>
    match g.shell with
    | some shell => .ok (.completions shell)
    | none => .error .usage

/-- The options of all levels, with those of the environment below them. -/
def Options.ofGiven (defaults : OptionVariables) (g : Given) : Options where
  config := g.config <|> defaults.config
  catalog := g.catalog
  script := g.script
  outside := g.outside
  inside := g.inside
  output := (g.output <|> defaults.output.bind OutputFormat.ofName?).getD .table
  color := g.color.getD .auto
  verbosity := g.verbosity
  quiet := g.quiet
  logJson := g.logJson

def Request.read (environment : Settings.Environment) (words : List String) :
    Except Stop Request := do
  let defaults := OptionVariables.ofEnvironment environment
  let (lowest, given) ← readLevel defaults (.start .program) words
  return ⟨.ofGiven defaults given, ← lowest.verb given⟩

end TrafficWarden
