import TrafficWarden.Calendar.Span
import TrafficWarden.Command.Request
import TrafficWarden.Records
import TrafficWarden.Settings.File
import TrafficWarden.Text.Table
import TrafficWarden.Yaml.Writer

/-!
# Reports

What a command found, and how it is shown: in a table or as details for people, as JSON or YAML, or
as bare identities and words, one on a line.
-/

namespace TrafficWarden

open Calendar

inductive Report where
  | policies (ps : List Policy)
  | policy (p : Policy) (targets : List Target) (bag : ParameterBag)
  | compiled (cs : List CompiledPolicy)
  | status (s : DispatchStatus) (now : Timestamp)
  | outcome (o : DispatchOutcome)
  | settings (s : Settings) (path : String)
  /-- A text that is shown in the same way in every format. -/
  | text (s : String)

/-- The format of a report, and whether its words are colored. -/
structure ReportStyle where
  format : OutputFormat
  colored : Bool
deriving DecidableEq, Repr

namespace ReportStyle

/-- A word in green if all is well and else in yellow. -/
def paint (style : ReportStyle) (word : String) (well : Bool) : String :=
  if style.colored then (if well then "\x1b[32m" else "\x1b[33m") ++ word ++ "\x1b[39m" else word

def dim (style : ReportStyle) (word : String) : String :=
  if style.colored then "\x1b[2m" ++ word ++ "\x1b[0m" else word

end ReportStyle

def yesNo (b : Bool) : String := if b then "yes" else "no"

def capText : Option UInt32 → String
  | none => "-"
  | some n => toString n.toNat ++ " kbit/s"

namespace Policy

/-- What a policy does to its traffic. -/
def action (p : Policy) : String :=
  if p.isBlocking then "block"
  else
    let limit := if p.upload.isSome || p.download.isSome then ["limit"] else []
    let tier := p.priority.toList.map fun t => t.name ++ " priority"
    ", ".intercalate (limit ++ tier)

def cells (p : Policy) : List String :=
  [p.id.text, p.name, yesNo p.enabled, p.action, capText p.upload, capText p.download,
    if p.hasWindows then toString p.windows.length else "always"]

end Policy

def policyTable (ps : List Policy) : Text.Table :=
  ⟨["ID", "Name", "Enabled", "Action", "Upload", "Download", "Windows"], ps.map Policy.cells⟩

/-- A rule, or a word for the rule without flags. -/
def Rule.label (r : Rule) : String := if r.size = 0 then "(any)" else r.text

def CompiledPolicy.rows (c : CompiledPolicy) : List (List String) :=
  c.rules.rules.zipIdx.map fun (r, n) =>
    [c.policy.id.text, c.policy.name, c.policy.action, toString (n + 1), r.label]

def ruleTable (cs : List CompiledPolicy) : Text.Table :=
  ⟨["Policy", "Name", "Action", "#", "Match"], cs.flatMap CompiledPolicy.rows⟩

/-- A time as `HH:MM`. -/
def clockText (t : TimeOfDay) : String :=
  Text.padded 2 t.hour.val ++ ":" ++ Text.padded 2 t.minute.val

def TimeWindow.line (w : TimeWindow) : String :=
  "  " ++ w.weekday.abbreviation ++ " " ++ clockText w.start ++ "-" ++ clockText w.stop

def windowLines (p : Policy) : List String :=
  if p.hasWindows then "Windows:" :: p.windows.map TimeWindow.line else ["Windows:     always"]

def Target.line (t : Target) : String :=
  let trafficClass := match t.trafficClass with
    | some id => "class " ++ id.text
    | none => "-"
  let mac := match t.mac with
    | some m => m.text
    | none => "-"
  "  #" ++ t.id.text ++ " " ++ t.role.name ++ " " ++ trafficClass ++ " mac " ++ mac

def parameterLines (b : ParameterBag) : List String :=
  ParameterKind.all.filterMap fun kind =>
    let values := b.values kind
    if values.isEmpty then none else some ("  " ++ kind.name ++ ": " ++ ",".intercalate values)

def tierText : Option Priority → String
  | some t => t.name ++ " (" ++ toString t.value ++ ")"
  | none => "-"

def policyLines (p : Policy) (targets : List Target) (bag : ParameterBag) : List String :=
  ["ID:          " ++ p.id.text,
    "Name:        " ++ p.name,
    "Description: " ++ p.description.getD "-",
    "Enabled:     " ++ yesNo p.enabled,
    "Action:      " ++ p.action,
    "Priority:    " ++ tierText p.priority,
    "Upload:      " ++ capText p.upload,
    "Download:    " ++ capText p.download] ++
  windowLines p ++
  ["Targets:     " ++ toString targets.length] ++ targets.map Target.line ++
  ["Parameters:"] ++ parameterLines bag

/-- How long ago a timestamp was. -/
def ageText (last now : Timestamp) : String :=
  let seconds := last.secondsTo now
  if seconds < 0 then "in the future" else spanText seconds.toNat ++ " ago"

def statusLines (style : ReportStyle) (s : DispatchStatus) (now : Timestamp) : List String :=
  let last := match s.last with
    | some t => t.text ++ " (" ++ ageText t now ++ ")"
    | none => "never"
  let changed := match s.changed with
    | some b => yesNo b
    | none => style.dim "not evaluated"
  ["Last dispatch:  " ++ last,
    "Temporal rules: " ++ yesNo s.temporal,
    "Set changed:    " ++ changed,
    "State:          " ++ style.paint s.state.name (!s.state.needsDispatch)]

def DispatchOutcome.line : DispatchOutcome → String
  | .skipped state => "Nothing to dispatch (" ++ state.name ++ ")"
  | .applied policies rules =>
    "Dispatched " ++ toString policies ++ " policies (" ++ toString rules ++ " rules)"

def DispatchOutcome.word : DispatchOutcome → String
  | .skipped _ => "skipped"
  | .applied .. => "applied"

def joinLines (lines : List String) : String := "\n".intercalate lines

namespace Report

/-- A report for people. -/
def detail (style : ReportStyle) : Report → String
  | .policies ps => (policyTable ps).text
  | .policy p targets bag => joinLines (policyLines p targets bag)
  | .compiled cs => (ruleTable cs).text
  | .status s now => joinLines (statusLines style s now)
  | .outcome o => o.line
  | .settings s _ => Text.trimmedRight s.fileText
  | .text s => s

/-- A report for programs that read lines. -/
def plain : Report → String
  | .policies ps => joinLines (ps.map (·.id.text))
  | .policy p _ _ => p.id.text
  | .compiled cs => joinLines (cs.flatMap fun c => c.rules.rules.map Rule.label)
  | .status s _ => s.state.name
  | .outcome o => o.word
  | .settings _ path => path
  | .text s => s

/-- A report as a record. -/
def toJson : Report → Json
  | .policies ps => .array (ps.map Policy.toJson)
  | .policy p targets bag => .object (p.members ++
      [("targets", .array (targets.map Target.toJson)), ("parameters", bag.toJson)])
  | .compiled cs => .array (cs.map CompiledPolicy.toJson)
  | .status s _ => s.toJson
  | .outcome o => o.toJson
  | .settings s _ => s.toJson
  | .text s => .string s

/-- A record in one of the formats for records. -/
def record (format : OutputFormat) (value : Json) : String :=
  match format with
  | .jsonCompact => value.compact
  | .yaml => Text.trimmedRight (Yaml.write value)
  | _ => value.indented

/-- A report in a style. -/
def render (style : ReportStyle) (r : Report) : String :=
  match r, style.format with
  | .text s, _ => s
  | r, .table => r.detail style
  | r, .plain => r.plain
  | r, format => record format r.toJson

end Report

end TrafficWarden
