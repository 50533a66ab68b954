import TrafficWarden.Shell.Builtin

/-!
# Running shell scripts

A command that fails ends a strict script, unless its failure is asked about. Every step of a run
takes one unit of fuel; a script that runs out of it is ended.
-/

namespace TrafficWarden.Shell

namespace Machine

/-- Ends a strict script that has failed, if its failure is not asked about. -/
def checked (m : Machine) (asked : Bool) : Machine :=
  if m.strict && !asked && m.status ≠ 0 && m.ending.isNone then m.finish (.exited m.status) else m

def closeField (current : Option String) (fields : List String) : List String :=
  match current with
  | some s => fields ++ [s]
  | none => fields

/-- The pieces of a text between blanks, and whether it begins or ends with one. -/
def splitBlanks (s : String) : List String × Bool × Bool :=
  let blank := fun c => c == ' ' || c == '\t' || c == '\n'
  let pieces := (s.toList.splitBy fun a b => blank a == blank b).filter fun cs => !cs.any blank
  (pieces.map String.ofList, s.toList.head?.any blank, s.toList.getLast?.any blank)

def addText (quoted : Bool) (s : String) (state : List String × Option String) :
    List String × Option String :=
  let (fields, current) := state
  if quoted then (fields, some (current.getD "" ++ s))
  else
    let (pieces, before, after) := splitBlanks s
    match pieces with
    | [] => if before then (closeField current fields, none) else state
    | first :: rest =>
      let (fields, current) :=
        if before then (closeField current fields, none) else (fields, current)
      let start := current.getD "" ++ first
      let all := start :: rest
      if after then (fields ++ all, none) else (fields ++ all.dropLast, all.getLast?)

/-- The text of a command's output, without the line breaks at its end. -/
def withoutBreaks (s : String) : String :=
  String.ofList (s.toList.reverse.dropWhile (· == '\n')).reverse

def openFor (m : Machine) (kind : RedirectKind) (path : String) : Except IoFault (Machine × Sink) :=
  if path = "/dev/null" then .ok (m, .nowhere)
  else
    let text := if kind = .append then ((m.files.read path).toOption).getD "" else ""
    (m.files.write path text m.now).map fun files => ({ m with files }, .file path)

def redirect (m : Machine) (r : Redirect) (target : String) : Except IoFault Machine :=
  match r.kind with
  | .read =>
    if target = "/dev/null" then .ok { m with input := [] }
    else (m.files.read target).map fun text => { m with input := Text.encode text }
  | .copy =>
    let sink :=
      if target = "1" then m.outputTo else if target = "2" then m.errorsTo else .nowhere
    .ok (if r.descriptor = 2 then { m with errorsTo := sink }
      else if r.descriptor = 1 then { m with outputTo := sink } else m)
  | kind => do
    let (m, sink) ← m.openFor kind target
    .ok (if r.descriptor = 2 then { m with errorsTo := sink }
      else if r.descriptor = 1 then { m with outputTo := sink } else m)

def restore (m before : Machine) : Machine :=
  { m with outputTo := before.outputTo, errorsTo := before.errorsTo, input := before.input }

/-- The machine after a part of a script that has no effect on the rest but through files and
outputs. -/
def leaveSubshell (m before : Machine) : Machine :=
  let status := match m.ending with
    | some (.exited n) => n
    | some (.killed n) => 128 + n
    | none => m.status
  { before with
    files := m.files
    output := m.output
    errors := m.errors
    status
    ending := match m.ending with
      | some (.killed n) => some (.killed n)
      | _ => before.ending }

def refuseRedirect (m : Machine) (line : Nat) (kind : RedirectKind) (target : String)
    (fault : IoFault) : Machine :=
  let verb := if kind = .read then "cannot open " else "cannot create "
  let reason := match fault with
    | .noSuchFile => if kind = .read then "No such file" else "Directory nonexistent"
    | fault => wording fault
  m.refuse 2 (m.script ++ ": " ++ toString line ++ ": " ++ verb ++ target ++ ": " ++ reason)

def hasOutput (assignments : List (String × Word)) : Bool :=
  assignments.any fun (_, w) => w.any fun
    | .output .. => true
    | _ => false

mutual

def expand : Nat → Machine → Word → List String × Option String → Machine × List String
  | 0, m, _, _ => (m.finish (.exited 2), [])
  | _ + 1, m, [], (fields, current) => (m, closeField current fields)
  | fuel + 1, m, piece :: rest, (fields, current) =>
    match piece with
    | .text s _ => expand fuel m rest (fields, some (current.getD "" ++ s))
    | .parameter "@" true =>
      if m.arguments.isEmpty then expand fuel m rest (fields, current)
      else expand fuel m rest (addText true (m.parameter "@") (fields, current))
    | .parameter name quoted =>
      expand fuel m rest (addText quoted (m.parameter name) (fields, current))
    | .output source quoted =>
      let (m, s) := capture fuel m source
      expand fuel m rest (addText quoted s (fields, current))

def capture : Nat → Machine → String → Machine × String
  | 0, m, _ => (m.finish (.exited 2), "")
  | fuel + 1, m, source =>
    let inner := { m with output := [], outputTo := .output, strict := false }
    let inner := runLines fuel inner (statements source).1
    let left := inner.leaveSubshell m
    ({ left with output := m.output }, withoutBreaks (Text.decode inner.output))

def expandAll : Nat → Machine → List Word → Machine × List String
  | 0, m, _ => (m.finish (.exited 2), [])
  | _ + 1, m, [] => (m, [])
  | fuel + 1, m, w :: rest =>
    let (m, fields) := expand fuel m w ([], none)
    let (m, more) := expandAll fuel m rest
    (m, fields ++ more)

def redirectAll : Nat → Nat → Machine → List Redirect → Machine × Bool
  | 0, _, m, _ => (m.finish (.exited 2), false)
  | _ + 1, _, m, [] => (m, true)
  | fuel + 1, line, m, r :: rest =>
    let (m, fields) := expand fuel m r.target ([], none)
    let target := fields.head?.getD ""
    match m.redirect r target with
    | .ok m => redirectAll fuel line m rest
    | .error fault => (m.refuseRedirect line r.kind target fault, false)

def assignAll : Nat → Machine → List (String × Word) → Machine
  | 0, m, _ => m.finish (.exited 2)
  | _ + 1, m, [] => m
  | fuel + 1, m, (name, w) :: rest =>
    let (m, fields) := expand fuel m w ([], none)
    assignAll fuel (m.assign name (" ".intercalate fields)) rest

/-- Runs a statement. `asked` tells whether its failure is asked about. -/
def run : Nat → Bool → Machine → Statement → Machine
  | 0, _, m, _ => m.finish (.exited 2)
  | fuel + 1, asked, m, s =>
    if m.ending.isSome then m
    else match s with
      | .nothing => m
      | .simple line assignments words redirects =>
        let before := m
        let (m, fields) := expandAll fuel m words
        let (m, opened) := redirectAll fuel line m redirects
        if m.ending.isSome then m
        else if !opened then (m.restore before).checked asked
        else match fields with
          | [] =>
            let after := (assignAll fuel m assignments).restore before
            (if hasOutput assignments then after else after.done).checked asked
          -- the redirections of a bare `exec` stay
          | "exec" :: [] => m
          | "eval" :: words =>
            let m := runLines fuel m (statements (" ".intercalate words)).1
            (m.restore before).checked asked
          | "exec" :: name :: arguments =>
            match m.command? line name arguments with
            | some m => if m.ending.isSome then m else m.finish (.exited m.status)
            | none =>
              (m.refuse 127 (m.script ++ ": " ++ toString line ++ ": exec: " ++ name ++
                ": not found")).finish (.exited 127)
          | name :: arguments =>
            -- a command sees the status from before its words were expanded
            let m := { m with status := before.status }
            let m := match m.command? line name arguments with
              | some m => m
              | none =>
                m.refuse 127 (m.script ++ ": " ++ toString line ++ ": " ++ name ++ ": not found")
            (m.restore before).checked asked
      | .sequence first second => run fuel asked (run fuel asked m first) second
      | .both first second =>
        let m := run fuel true m first
        if m.status = 0 then run fuel asked m second else m
      | .either first second =>
        let m := run fuel true m first
        if m.status = 0 then m else run fuel asked m second
      | .negated s =>
        let m := run fuel true m s
        if m.ending.isSome then m else m.withStatus (if m.status = 0 then 1 else 0)
      | .background s => ((run fuel true m s).leaveSubshell m).done
      | .pipe first second =>
        let inner := run fuel true { m with output := [], outputTo := .output } first
        let left := { inner.leaveSubshell m with output := m.output }
        let right := run fuel true { left with input := inner.output } second
        (right.leaveSubshell { m with ending := left.ending }).checked asked
      | .group body redirects =>
        let (opened, ok) := redirectAll fuel 1 m redirects
        if ok then (run fuel asked opened body).restore m else opened.restore m
      | .subshell body redirects =>
        let (opened, ok) := redirectAll fuel 1 m redirects
        if ok then ((run fuel asked opened body).leaveSubshell m).checked asked
        else opened.restore m
      | .choice test yes no =>
        let m := run fuel true m test
        if m.status = 0 then run fuel asked m yes else run fuel asked m.done no
      | .loop whileTrue test body =>
        let m := run fuel true m test
        if m.ending.isSome then m
        else if (m.status = 0) = whileTrue then
          run fuel asked (run fuel asked m body) (.loop whileTrue test body)
        else m.done
      | .each name words body =>
        let (m, fields) := expandAll fuel m words
        runEach fuel asked m name fields body

def runEach : Nat → Bool → Machine → String → List String → Statement → Machine
  | 0, _, m, _, _, _ => m.finish (.exited 2)
  | _ + 1, _, m, _, [], _ => m
  | fuel + 1, asked, m, name, value :: rest, body =>
    runEach fuel asked (run fuel asked (m.assign name value) body) name rest body

def runLines : Nat → Machine → List Statement → Machine
  | 0, m, _ => m.finish (.exited 2)
  | _ + 1, m, [] => m
  | fuel + 1, m, s :: rest => runLines fuel (run fuel false m s) rest

end

def scriptFuel : Nat := 10000

/-- Runs a whole script. What cannot be read ends it after the lines before. -/
def runScript (m : Machine) (source : String) : Machine :=
  let (lines, complaint) := statements source
  let m := runLines scriptFuel m lines
  match complaint with
  | none => m
  | some c =>
    if m.ending.isSome then m
    else
      (m.refuse 2 (m.script ++ ": " ++ toString c.line ++ ": Syntax error: " ++ c.text)).finish
        (.exited 2)

end Machine

structure Execution where
  ending : Ending
  errors : String
deriving DecidableEq, Repr

/-- What runs a script: it may not start, and it may change files. -/
abbrev Program := Files.Tree → Calendar.Timestamp → (script : String) →
  Except IoFault Execution × Files.Tree

/-- The program that runs the script of a path as a shell does. -/
def shellProgram : Program := fun files now script =>
  match files.read script with
  | .error fault =>
    let complaint := "sh: 0: cannot open " ++ script ++ ": " ++ Machine.wording fault ++ "\n"
    (.ok ⟨.exited 2, complaint⟩, files)
  | .ok source =>
    let m := (Machine.start files now script).runScript source
    (.ok ⟨m.ending.getD (.exited m.status), Text.decode m.errors⟩, m.files)

/-- A program that is a command with the path of the script as its argument. -/
def commandProgram (name : String) : Program := fun files now script =>
  match (Machine.start files now script).command? 1 name [script] with
  | some m => (.ok ⟨m.ending.getD (.exited m.status), Text.decode m.errors⟩, m.files)
  | none => (.error .noSuchFile, files)

def shellNames : List String := ["sh", "dash", "bash", "ash", "ksh"]

def pathFault (files : Files.Tree) (path : String) : IoFault :=
  match files.find path with
  | .error fault => fault
  | .ok _ => .permissionDenied

/-- The program of a path. A name without slashes is one of the programs of the machine. -/
def program (path : String) : Program := fun files now script =>
  let name := Machine.programName path
  if name.toList.contains '/' then (.error (pathFault files path), files)
  else if shellNames.contains name then shellProgram files now script
  else commandProgram name files now script

end TrafficWarden.Shell
