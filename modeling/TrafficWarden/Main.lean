import Std.Time.Zoned
import TrafficWarden.Command.Run

/-!
# The program

The files that a command concerns are read into a tree, the command runs on the tree, and what it
changed is written back. Scripts are run by the shell of this library, on the same tree. A watch
does this again after each interval.
-/

namespace TrafficWarden.Program

open Calendar Files

/-- The variables that options and settings are read from. -/
def variableNames : List String :=
  ["NETCOP_CONFIG", "NETCOP_OUTPUT", "NETCOP_INTERFACES", "NETCOP_INTERFACES__OUTSIDE",
    "NETCOP_INTERFACES__INSIDE", "NETCOP_DISPATCH", "NETCOP_DISPATCH__SCRIPT_PATH",
    "NETCOP_DISPATCH__SHELL", "NETCOP_DISPATCH__INTERVAL_SECS", "NETCOP_CATALOG",
    "NETCOP_CATALOG__PATH"]

def readEnvironment : IO Settings.Environment :=
  variableNames.filterMapM fun name => do return (← IO.getEnv name).map (name, ·)

/-- The directory for the configuration of a user. -/
def readConfigHome : IO String := do
  match ← IO.getEnv "XDG_CONFIG_HOME" with
  | some home => return home
  | none => return (← IO.getEnv "HOME").getD "" ++ "/.config"

/-- The local time and its distance from universal time, in seconds. -/
def readClock : IO (Timestamp × Int) := do
  let clock := (← Std.Time.PlainDateTime.now).toWallTime.val
  let here := clock.second.val
  let universal := (← Std.Time.Timestamp.now).toSecondsSinceUnixEpoch.val
  return ((Timestamp.ofEpoch? here clock.nano.val.toNat).getD default, here - universal)

def isTerminal : IO Bool := do
  return (← (← IO.getStdout).isTty) && (← IO.getEnv "NO_COLOR").isNone

/-- A tree with a file in it. -/
def withFile (t : Tree) (path text : String) (modified : Timestamp) : Tree :=
  match (do (← t.makeParents path modified).write path text modified) with
  | .ok t => t
  | .error _ => t

/-- The text of a file. What is no text counts as empty. -/
def readText (path : String) : IO String := do
  try IO.FS.readFile path
  catch _ => return ""

/-- A tree with the file that is at a path, if there is one. -/
def survey (now : Timestamp) (offset : Int) (t : Tree) (path : String) : IO Tree := do
  try
    let found ← IO.FS.realPath path
    let info ← found.metadata
    let seconds := info.modified.sec + offset
    let modified := (Timestamp.ofEpoch? seconds info.modified.nsec.toNat).getD now
    match info.type with
    | .file => return withFile t path (← readText path) modified
    | .dir => return (t.makeParents (path ++ "/.") now).toOption.getD t
    | _ => return t
  catch _ => return t

/-- The files of the settings that are in effect. -/
def settingsPaths (s : Settings) : List String :=
  [s.catalogPath, s.scriptPath, s.scriptFile.stagePath, s.shell]

/-- Where a request runs. -/
def readSite (r : Request) : IO Site := do
  let (now, offset) ← readClock
  let base := (Tree.empty now).put ["/"] (.directory now)
  let site : Site := {
    files := base
    platform := Settings.platformPath (← readConfigHome)
    environment := ← readEnvironment
    now := now
    colored := ← isTerminal }
  let files ← survey now offset base (r.options.settingsPath site)
  match r.options.settings { site with files } with
  | .error _ => return { site with files }
  | .ok s => return { site with files := ← (settingsPaths s).foldlM (survey now offset) files }

/-- The directories on the way to a path. -/
def makeDirectories (path : String) : IO Unit := do
  let way := "/".intercalate (names path).dropLast
  if isAbsolute path then IO.FS.createDirAll ("/" ++ way)
  else if way ≠ "" then IO.FS.createDirAll way

def executable : IO.FileRight := {
  user := { read := true, write := true, execution := true }
  group := { read := true, execution := true }
  other := { read := true, execution := true } }

/-- Writes back what became of the file at a path. -/
def restore (before after : Tree) (path : String) : IO Unit :=
  match before.find path, after.find path with
  | .ok (_, .file _), .error _ => IO.FS.removeFile path
  | old, .ok (_, .file f) => do
    let unchanged := match old with
      | .ok (_, .file g) => f = g
      | _ => false
    if !unchanged then
      makeDirectories path
      IO.FS.writeFile path f.text
      if f.mode = ScriptFile.scriptMode then IO.setAccessRights path executable
  | _, _ => return

def restoreAll (r : Request) (site : Site) (o : Outcome) : IO Unit := do
  let own := [r.options.settingsPath site]
  let paths := match r.options.settings site with
    | .ok s => own ++ [s.scriptPath, s.scriptFile.stagePath]
    | .error _ => own
  paths.forM (restore site.files o.files)

/-- Prints what a command printed to standard output, and what it warned of and how it failed to
standard error. -/
def announce (o : Outcome) : IO Unit := do
  IO.print o.output
  o.warnings.forM fun w => IO.eprintln ("warning: " ++ w.message)
  match o.fault with
  | none => return
  | some fault =>
    IO.eprintln ("error: " ++ fault.message)
    match fault.advice? with
    | some advice => IO.eprintln advice
    | none => return

/-- Runs a request once. -/
def perform (r : Request) : IO Nat := do
  let site ← readSite r
  let outcome := r.run site
  restoreAll r site outcome
  announce outcome
  return outcome.exitCode

/-- The seconds between the cycles of a watch. -/
def readInterval (r : Request) (given : Option UInt64) : IO Nat := do
  match given, r.options.settings (← readSite r) with
  | some seconds, _ => return seconds.toNat
  | none, .ok s => return s.interval.toNat
  | none, .error _ => return Settings.standard.interval.toNat

/-- Repeats the cycle of a watch until the program is interrupted. -/
partial def goOn (r : Request) (seconds : Nat) : IO Unit := do
  for _ in [0:seconds] do
    IO.sleep 1000
  let _ ← perform r
  goOn r seconds

def usage : String :=
  "usage: netcop [OPTIONS] policies|compile|status|dispatch|watch|config|completions"

end TrafficWarden.Program

open TrafficWarden TrafficWarden.Program in
def main (words : List String) : IO UInt32 := do
  match Request.read (← readEnvironment) words with
  | .error stop =>
    IO.eprintln usage
    return stop.exitCode.toUInt32
  | .ok request =>
    let code ← perform request
    match code, request.verb with
    | 0, .watch given =>
      goOn request (← readInterval request given)
      return 0
    | code, _ => return code.toUInt32
