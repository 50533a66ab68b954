import TrafficWarden.Catalog.File
import TrafficWarden.Command.Fault
import TrafficWarden.Command.Reader
import TrafficWarden.Command.Report
import TrafficWarden.Dispatch.ScriptFile
import TrafficWarden.Dispatch.Watch
import TrafficWarden.Settings.Validation

/-!
# Running commands

A command finds a report or fails, and may change files and give warnings. How the report is shown
has no part in that: it decides what is printed and nothing else.
-/

namespace TrafficWarden

open Calendar Files

structure Site where
  files : Tree
  /-- Where the platform keeps the settings. -/
  platform : String
  environment : Settings.Environment
  now : Timestamp
  /-- Whether words are colored unless a command line says more. -/
  colored : Bool

structure Result where
  report : Except CommandFault Report
  files : Tree
  warnings : List Warning

/-- What the program does: its exit code, what it prints, and the rest of the result. -/
structure Outcome where
  exitCode : Nat
  output : String
  fault : Option CommandFault
  files : Tree
  warnings : List Warning

namespace Options

def override (o : Options) (s : Settings) : Settings :=
  { s with
    catalogPath := o.catalog.getD s.catalogPath
    scriptPath := o.script.getD s.scriptPath
    interfaces := ⟨o.outside.getD s.interfaces.outside, o.inside.getD s.interfaces.inside⟩ }

def settingsPath (o : Options) (site : Site) : String := o.config.getD site.platform

def settings (o : Options) (site : Site) : Except CommandFault Settings :=
  ((Settings.load site.files site.platform site.environment o.config).mapError .settings).map
    o.override

def validSettings (o : Options) (site : Site) : Except CommandFault Settings := do
  let s ← o.settings site
  s.validate.mapError .settings

def style (o : Options) (site : Site) : ReportStyle where
  format := o.output
  colored := match o.color with
    | .always => true
    | .never => false
    | .auto => site.colored

/-- What is printed of a report: nothing if it is empty or the program is to be quiet. -/
def print (o : Options) (site : Site) (r : Report) : String :=
  let text := r.render (o.style site)
  if o.quiet || text.isEmpty then "" else text ++ "\n"

end Options

def momentOf (site : Site) : Option String → Except CommandFault Timestamp
  | none => .ok site.now
  | some raw =>
    match Timestamp.read? raw with
    | some t => .ok t
    | none => .error (.invalidArgument "at" (Timestamp.complaint raw))

def Settings.scriptFile (s : Settings) : ScriptFile := ⟨s.scriptPath, s.shell⟩

namespace PolicySource

def listing (s : PolicySource) (site : Site) (active : Bool) (moment : Option String) :
    Except CommandFault Report := do
  -- a moment that cannot be read is refused even where none is needed
  let moment ← momentOf site moment
  let policies ← s.policies.mapError .dispatch
  return .policies (policies.filter fun p => !active || p.isActive moment)

def detail (s : PolicySource) (id : EntityId) : Except CommandFault Report := do
  let policy ← (s.policy id).mapError .dispatch
  let targets ← (s.targets id).mapError .dispatch
  let bag ← (s.bag id).mapError .dispatch
  return .policy policy targets bag

/-- The policies of the given identities in their order; without any, the active ones. -/
def selection (s : PolicySource) (ids : List EntityId) (moment : Timestamp) :
    Except Fault (List Policy) :=
  if ids.isEmpty then s.active moment else ids.mapM s.policy

def compilation (s : PolicySource) (site : Site) (ids : List EntityId) (moment : Option String) :
    Except CommandFault Report × List Warning :=
  match momentOf site moment with
  | .error fault => (.error fault, [])
  | .ok moment =>
    match s.selection ids moment with
    | .error fault => (.error (.dispatch fault), [])
    | .ok policies =>
      let (compiled, warnings) := s.compilePolicies policies
      ((compiled.mapError .dispatch).map .compiled, warnings)

def decision (s : PolicySource) (site : Site) (settings : Settings) (moment : Option String) :
    Except CommandFault Report := do
  let moment ← momentOf site moment
  let status ← (s.status (settings.scriptFile.last site.files) moment).mapError .dispatch
  return .status status moment

def dispatch (s : PolicySource) (site : Site) (settings : Settings) (force dryRun : Bool) :
    Result :=
  if dryRun then
    let (script, warnings) := s.preview settings.interfaces site.now
    let report := (script.mapError .dispatch).map fun text => Report.text (Text.trimmedRight text)
    ⟨report, site.files, warnings⟩
  else
    let runner := settings.scriptFile.runner site.now
    let (outcome, files, warnings) := s.cycle runner settings.interfaces site.now force site.files
    ⟨(outcome.mapError .dispatch).map .outcome, files, warnings⟩

end PolicySource

def watchCycle (site : Site) (settings : Settings) : Result :=
  let watch : Watch Tree := {
    load := fun _ =>
      let (store, warnings) := Store.load site.files settings.catalogPath
      (store.map Store.source, warnings)
    clock := fun _ => site.now
    runner := settings.scriptFile.runner
    interfaces := settings.interfaces }
  let (files, warnings) := watch.tick 0 site.files
  ⟨.ok (.text ""), files, warnings⟩

def withStore (site : Site) (settings : Settings) (use : PolicySource → Result) : Result :=
  match Store.load site.files settings.catalogPath with
  | (.error fault, warnings) => ⟨.error (.dispatch fault), site.files, warnings⟩
  | (.ok store, warnings) =>
    let result := use store.source
    { result with warnings := warnings ++ result.warnings }

/-- A watch up to its first interruption, after its first cycle. A catalog that cannot be loaded at
the start ends it at once. -/
def watch (site : Site) (settings : Settings) (interval : Option UInt64) : Result :=
  if interval = some 0 then
    ⟨.error (.invalidArgument "interval" "must be at least 1 second"), site.files, []⟩
  else withStore site settings fun _ => watchCycle site settings

namespace Verb

def runWithCatalog (site : Site) (settings : Settings) (v : Verb) : Result :=
  let unchanging (report : Except CommandFault Report) : Result := ⟨report, site.files, []⟩
  let onStore (use : PolicySource → Result) : Result := withStore site settings use
  match v with
  | .listPolicies active moment => onStore fun s => unchanging (s.listing site active moment)
  | .showPolicy id => onStore fun s => unchanging (s.detail id)
  | .compile ids moment => onStore fun s =>
    let (report, warnings) := s.compilation site ids moment
    ⟨report, site.files, warnings⟩
  | .status moment => onStore fun s => unchanging (s.decision site settings moment)
  | .dispatch force dryRun => onStore fun s => s.dispatch site settings force dryRun
  | .watch interval => TrafficWarden.watch site settings interval
  | _ => unchanging (.ok (.text ""))

/-- The settings that are in effect. Those that cannot be written as a file are not shown. -/
def shownSettings (site : Site) (o : Options) : Except CommandFault Report := do
  let s ← o.settings site
  match s.fileText? with
  | .ok _ => return .settings s (o.settingsPath site)
  | .error _ => .error .unrenderable

/-- Runs a command. Those about the settings work without a catalog and with settings that are not
valid. The completions of a shell are not made here. -/
def run (site : Site) (o : Options) (v : Verb) : Result :=
  match v with
  | .showSettings => ⟨shownSettings site o, site.files, []⟩
  | .settingsPath => ⟨.ok (.text (o.settingsPath site)), site.files, []⟩
  | .initSettings force =>
    let (made, files) := Settings.init site.files (o.settingsPath site) force site.now
    ⟨(made.mapError .settings).map fun _ => .text "", files, []⟩
  | .completions _ => ⟨.ok (.text ""), site.files, []⟩
  | v =>
    match o.validSettings site with
    | .error fault => ⟨.error fault, site.files, []⟩
    | .ok settings => v.runWithCatalog site settings

end Verb

namespace Request

def run (site : Site) (r : Request) : Outcome :=
  let result := r.verb.run site r.options
  match result.report with
  | .ok report => ⟨0, r.options.print site report, none, result.files, result.warnings⟩
  | .error fault => ⟨fault.exitCode, "", some fault, result.files, result.warnings⟩

end Request

def runProgram (site : Site) (words : List String) : Except Stop Outcome :=
  (Request.read site.environment words).map (·.run site)

end TrafficWarden
