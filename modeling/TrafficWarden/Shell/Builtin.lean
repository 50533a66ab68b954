import TrafficWarden.Shell.Machine

/-!
# Commands of the shell and small programs

What a command does to a machine. Most commands only look at files, or make and remove them.
-/

namespace TrafficWarden.Shell

open Files

namespace Machine

/-- The end of a command that succeeds. -/
def done (m : Machine) : Machine := m.withStatus 0

/-- The end of a command that fails with a message. -/
def refuse (m : Machine) (status : Nat) (message : String) : Machine :=
  (m.complain (message ++ "\n")).withStatus status

/-- The wording of a fault by a program. -/
def wording : IoFault → String
  | .noSuchFile => "No such file or directory"
  | .isADirectory => "Is a directory"
  | .notADirectory => "Not a directory"
  | .fileExists => "File exists"
  | .permissionDenied => "Permission denied"
  | fault => fault.message

/-- Up to `n` digits of a radix at the head of a text, and what follows them. -/
def takeDigits (radix : Nat) : Nat → Nat → List Char → Nat × List Char
  | 0, value, cs => (value, cs)
  | _ + 1, value, [] => (value, [])
  | n + 1, value, c :: rest =>
    match (Text.hexValue? c).filter (· < radix) with
    | some d => takeDigits radix n (value * radix + d) rest
    | none => (value, c :: rest)

/-- The byte of a letter after a backslash. -/
def escapeByte? : Char → Option UInt8
  | 'a' => some 7
  | 'b' => some 8
  | 'f' => some 12
  | 'n' => some 10
  | 'r' => some 13
  | 't' => some 9
  | 'v' => some 11
  | '\\' => some 92
  | _ => none

/-- The bytes of a text with escapes; the last result tells whether an escape ends the output. In
the text of `echo`, an octal number begins with a zero. -/
def unescape (zeroFirst : Bool) : Nat → List Char → List UInt8 × Bool
  | 0, _ => ([], false)
  | _, [] => ([], false)
  | fuel + 1, '\\' :: c :: rest =>
    if c = 'c' then ([], true)
    else match escapeByte? c with
      | some b =>
        let (bs, stop) := unescape zeroFirst fuel rest
        (b :: bs, stop)
      | none =>
        if '0' ≤ c && c ≤ '7' && (c = '0' || !zeroFirst) then
          let (value, rest) := takeDigits 8 3 0 (if zeroFirst then rest else c :: rest)
          let (bs, stop) := unescape zeroFirst fuel rest
          (value.toUInt8 :: bs, stop)
        else
          let (bs, stop) := unescape zeroFirst fuel rest
          (Text.encode (String.ofList ['\\', c]) ++ bs, stop)
  | fuel + 1, c :: rest =>
    let (bs, stop) := unescape zeroFirst fuel rest
    (Text.encode (String.singleton c) ++ bs, stop)

def unescaped (zeroFirst : Bool) (s : String) : List UInt8 × Bool :=
  unescape zeroFirst s.length s.toList

def echo (m : Machine) (arguments : List String) : Machine :=
  let (quiet, words) := match arguments with
    | "-n" :: rest => (true, rest)
    | words => (false, words)
  let (bytes, stop) := unescaped true (" ".intercalate words)
  (m.put (bytes ++ if quiet || stop then [] else [10])).done

def padTo (width : Nat) (left : Bool) (fill : Char) (s : String) : String :=
  let missing := String.ofList (List.replicate (width - s.length) fill)
  if left then s ++ missing else missing ++ s

def integerOf (s : String) : Int :=
  match Text.readInteger .int64 s.toList with
  | .ok n => n
  | .error _ => 0

/-- One conversion of a format with an argument. -/
def convert (flags : List Char) (width : Nat) (kind : Char) (argument : String) : List UInt8 :=
  let left := flags.contains '-'
  let pad (s : String) : List UInt8 := Text.encode (padTo width left ' ' s)
  let number (s : String) : List UInt8 :=
    Text.encode (padTo width left (if flags.contains '0' && !left then '0' else ' ') s)
  if kind = 's' then pad argument
  else if kind = 'c' then pad (String.ofList (argument.toList.take 1))
  else if kind = 'b' then (unescaped true argument).1
  else if kind = 'x' then number (String.ofList (Nat.toDigits 16 (integerOf argument).toNat))
  else if kind = 'o' then number (String.ofList (Nat.toDigits 8 (integerOf argument).toNat))
  else number (toString (integerOf argument))

/-- Writes a format once, and returns the arguments that it leaves over. -/
def formatOnce : Nat → List Char → List String → List UInt8 × List String
  | 0, _, arguments => ([], arguments)
  | _, [], arguments => ([], arguments)
  | fuel + 1, '%' :: '%' :: rest, arguments =>
    let (bs, left) := formatOnce fuel rest arguments
    (37 :: bs, left)
  | fuel + 1, '%' :: rest, arguments =>
    let flags := rest.takeWhile fun c => c == '-' || c == '0' || c == '+' || c == ' '
    let rest := rest.drop flags.length
    let digits := rest.takeWhile Text.isDigit
    match rest.drop digits.length with
    | kind :: rest =>
      let here := convert flags (Text.digitsValue digits) kind (arguments.head?.getD "")
      let (bs, left) := formatOnce fuel rest (arguments.drop 1)
      (here ++ bs, left)
    | [] => ([], arguments)
  | fuel + 1, cs, arguments =>
    let text := if cs.head? = some '\\' then cs.take 1 ++ (cs.drop 1).takeWhile (· ≠ '%')
      else cs.takeWhile (· ≠ '%')
    let (bs, left) := formatOnce fuel (cs.drop text.length) arguments
    ((unescape false text.length text).1 ++ bs, left)

/-- Writes a format as often as there are arguments for it, and at least once. -/
def formatAll (format : List Char) : Nat → List String → List UInt8
  | 0, _ => []
  | fuel + 1, arguments =>
    let (bs, left) := formatOnce (format.length + 1) format arguments
    if left.isEmpty || left.length = arguments.length then bs else bs ++ formatAll format fuel left

def printf (m : Machine) : List String → Machine
  | [] => m.refuse 2 (m.script ++ ": 1: printf: usage: printf format [arg ...]")
  | format :: arguments =>
    (m.put (formatAll format.toList (arguments.length + 1) arguments)).done

/-- Ends the script with the status of a numeral, or of the last command. -/
def exit (m : Machine) (line : Nat) : List String → Machine
  | [] => m.finish (.exited m.status)
  | s :: _ =>
    match Text.readInteger .uint32 s.toList with
    | .ok n => m.finish (.exited (n.toNat % 256))
    | .error _ =>
      (m.refuse 2 (m.script ++ ": " ++ toString line ++ ": exit: Illegal number: " ++ s)).finish
        (.exited 2)

def kill (m : Machine) (arguments : List String) : Machine :=
  let (signal, targets) := match arguments with
    | "-s" :: s :: rest => (signal? s, rest)
    | s :: rest =>
      match s.toList with
      | '-' :: name => (signal? (String.ofList name), rest)
      | _ => (some 15, s :: rest)
    | [] => (none, [])
  match signal with
  | none => m.withStatus 2
  | some n =>
    if targets.contains (toString processId) then
      if isHarmless n then m.done else m.finish (.killed n)
    else m.refuse 1 (m.script ++ ": 1: kill: No such process")

def set (m : Machine) : List String → Machine
  | [] => m.done
  | "-e" :: _ => { m with strict := true }.done
  | "+e" :: _ => { m with strict := false }.done
  | "-o" :: "errexit" :: _ => { m with strict := true }.done
  | "+o" :: "errexit" :: _ => { m with strict := false }.done
  | "--" :: rest => { m with arguments := rest }.done
  | s :: _ =>
    if s.startsWith "-" && s.toList.contains 'e' then { m with strict := true }.done else m.done

/-- Removes files; those that are not there are passed over if that is asked for. -/
def remove (m : Machine) (quiet deep : Bool) : List String → Machine
  | [] => m
  | path :: rest =>
    let m := match m.files.find path with
      | .error fault =>
        if quiet then m
        else m.refuse 1 ("rm: cannot remove '" ++ path ++ "': " ++ wording fault)
      | .ok (place, .directory _) =>
        if deep then
          let kept := m.files.links.filter fun l => l.1.take place.length ≠ place
          { m with files := { m.files with links := kept } }
        else m.refuse 1 ("rm: cannot remove '" ++ path ++ "': Is a directory")
      | .ok (place, .file _) => { m with files := m.files.drop place }
    remove m quiet deep rest

/-- The options at the head of some arguments, letter by letter, and the other arguments. -/
def options : List String → List Char × List String
  | "--" :: rest => ([], rest)
  | s :: rest =>
    match s.toList with
    | '-' :: c :: letters =>
      let (more, others) := options rest
      (c :: letters ++ more, others)
    | _ => ([], s :: rest)
  | [] => ([], [])

/-- Writes the text of files, or of the input. -/
def cat (m : Machine) : List String → Machine
  | [] => m
  | path :: rest =>
    let m := match m.files.read path with
      | .ok text => m.say text
      | .error fault => m.refuse 1 ("cat: " ++ path ++ ": " ++ wording fault)
    cat m rest

def touch (m : Machine) : List String → Machine
  | [] => m
  | path :: rest =>
    let m := match m.files.setLastChange path m.now with
      | .ok files => { m with files }
      | .error _ =>
        match m.files.write path "" m.now with
        | .ok files => { m with files }
        | .error fault => m.refuse 1 ("touch: cannot touch '" ++ path ++ "': " ++ wording fault)
    touch m rest

/-- Makes directories, with those on the way to them if that is asked for. -/
def makeDirectories (m : Machine) (deep : Bool) : List String → Machine
  | [] => m
  | path :: rest =>
    let m :=
      if deep then
        match m.files.makeParents (path ++ "/x") m.now with
        | .ok files => { m with files }
        | .error fault =>
          m.refuse 1 ("mkdir: cannot create directory '" ++ path ++ "': " ++ wording fault)
      else
        match m.files.find path, m.files.locate path with
        | .error .noSuchFile, .ok place => { m with files := m.files.put place (.directory m.now) }
        | .error fault, _ =>
          m.refuse 1 ("mkdir: cannot create directory '" ++ path ++ "': " ++ wording fault)
        | .ok _, _ => m.refuse 1 ("mkdir: cannot create directory '" ++ path ++ "': File exists")
    makeDirectories m deep rest

/-- The path of a file within a directory, or a path that is no directory. -/
def goal (m : Machine) (source target : String) : String :=
  match m.files.find target with
  | .ok (_, .directory _) => target ++ "/" ++ (fileName? source).getD ""
  | _ => target

/-- The end of a program that is to replace a file with itself. -/
def refuseSame (m : Machine) (name source target : String) : Machine :=
  m.refuse 1 (name ++ ": '" ++ source ++ "' and '" ++ target ++ "' are the same file")

def copy (m : Machine) (source target : String) : Machine :=
  let target := m.goal source target
  match m.files.read source with
  | .error fault => m.refuse 1 ("cp: cannot stat '" ++ source ++ "': " ++ wording fault)
  | .ok text =>
    if m.files.SameFile source target then m.refuseSame "cp" source target
    else
      match m.files.write target text m.now with
      | .ok files => { m with files }.done
      | .error fault =>
        m.refuse 1 ("cp: cannot create regular file '" ++ target ++ "': " ++ wording fault)

def move (m : Machine) (source target : String) : Machine :=
  let target := m.goal source target
  if m.files.SameFile source target then m.refuseSame "mv" source target
  else
    match m.files.rename source target with
    | .ok files => { m with files }.done
    | .error fault => m.refuse 1 ("mv: cannot stat '" ++ source ++ "': " ++ wording fault)

/-- Makes another link of a file, instead of the file that is in its place if that is asked for. -/
def link (m : Machine) (force : Bool) (source target : String) : Machine :=
  let target := m.goal source target
  match m.files.find source with
  | .error fault => m.refuse 1 ("ln: failed to access '" ++ source ++ "': " ++ wording fault)
  | .ok (_, .directory _) =>
    m.refuse 1 ("ln: " ++ source ++ ": hard link not allowed for directory")
  | .ok (place, _) =>
    if force && (m.files.locate target).toOption == some place then m.refuseSame "ln" source target
    else
      let free := if force then (m.files.remove target).toOption.getD m.files else m.files
      match free.link source target with
      | .ok files => { m with files }.done
      | .error fault =>
        m.refuse 1 ("ln: failed to create hard link '" ++ target ++ "': " ++ wording fault)

def changeMode (m : Machine) (mode : Nat) : List String → Machine
  | [] => m
  | path :: rest =>
    let m := match m.files.setMode path mode with
      | .ok files => { m with files }
      | .error fault => m.refuse 1 ("chmod: cannot access '" ++ path ++ "': " ++ wording fault)
    changeMode m mode rest

/-- The permissions that an octal numeral says. -/
def modeOf? (s : String) : Option Nat :=
  let cs := s.toList
  if cs.isEmpty || cs.any (fun c => !('0' ≤ c && c ≤ '7')) then none
  else some (takeDigits 8 cs.length 0 cs).1

/-- Whether the condition of a test holds. -/
def holds (m : Machine) : List String → Bool
  | [] => false
  | [s] => s ≠ ""
  | "!" :: rest => !holds m rest
  | ["-z", s] => s = ""
  | ["-n", s] => s ≠ ""
  | ["-e", path] => m.files.exists? path
  | ["-r", path] => m.files.exists? path
  | ["-w", path] => m.files.exists? path
  | ["-f", path] => m.files.isFile path
  | ["-d", path] => m.files.exists? path && !m.files.isFile path
  | ["-s", path] => ((m.files.read path).toOption).any (· ≠ "")
  | ["-x", path] =>
    match m.files.find path with
    | .ok (_, .file f) => f.mode % 2 = 1
    | .ok _ => true
    | .error _ => false
  | [a, "=", b] => a = b
  | [a, "!=", b] => a ≠ b
  | [a, "-eq", b] => integerOf a = integerOf b
  | [a, "-ne", b] => integerOf a ≠ integerOf b
  | [a, "-lt", b] => integerOf a < integerOf b
  | [a, "-le", b] => integerOf a ≤ integerOf b
  | [a, "-gt", b] => integerOf b < integerOf a
  | [a, "-ge", b] => integerOf b ≤ integerOf a
  | _ => false

def test (m : Machine) (arguments : List String) : Machine :=
  m.withStatus (if m.holds arguments then 0 else 1)

/-- A test in brackets. -/
def bracket (m : Machine) (line : Nat) (arguments : List String) : Machine :=
  if arguments.getLast? = some "]" then m.test arguments.dropLast
  else m.refuse 2 (m.script ++ ": " ++ toString line ++ ": [: missing ]")

/-- Sets the variables of assignments. -/
def exportAll (m : Machine) (arguments : List String) : Machine :=
  (arguments.foldl
    (fun m s =>
      let name := s.toList.takeWhile (· ≠ '=')
      match s.toList.drop name.length with
      | _ :: value => m.assign (String.ofList name) (String.ofList value)
      | [] => m)
    m).done

/-- The name of a command without the directory of programs that it may be in. -/
def programName (name : String) : String :=
  if name.startsWith "/bin/" then String.ofList (name.toList.drop 5)
  else if name.startsWith "/usr/bin/" then String.ofList (name.toList.drop 9)
  else name

/-- Runs a command; `none` if there is no such command. -/
def command? (m : Machine) (line : Nat) (name : String) (arguments : List String) :
    Option Machine :=
  let (letters, others) := options arguments
  match programName name with
  | ":" => some m.done
  | "true" => some m.done
  | "false" => some (m.withStatus 1)
  | "echo" => some (m.echo arguments)
  | "printf" => some (m.printf arguments)
  | "exit" => some (m.exit line arguments)
  | "return" => some (m.exit line arguments)
  | "kill" => some (m.kill arguments)
  | "set" => some (m.set arguments)
  | "test" => some (m.test arguments)
  | "[" => some (m.bracket line arguments)
  | "export" => some (m.exportAll arguments)
  | "readonly" => some (m.exportAll arguments)
  | "unset" =>
    some { m with bindings := m.bindings.filter fun v => !others.contains v.1 }.done
  | "shift" => some { m with arguments := m.arguments.drop 1 }.done
  | "umask" => some m.done
  | "trap" => some m.done
  | "wait" => some m.done
  | "sleep" => some m.done
  | "sync" => some m.done
  | "pwd" => some (m.say ((m.lookup "PWD").getD "/" ++ "\n")).done
  | "rm" =>
    let deep := letters.contains 'r' || letters.contains 'R'
    some ((m.done).remove (letters.contains 'f') deep others)
  | "cat" =>
    if others.isEmpty then some (m.put m.input).done else some ((m.done).cat others)
  | "touch" => some ((m.done).touch others)
  | "mkdir" => some ((m.done).makeDirectories (letters.contains 'p') others)
  | "chmod" =>
    match arguments with
    | mode :: paths =>
      match modeOf? mode with
      | some n => some ((m.done).changeMode n paths)
      | none => some m.done
    | [] => some (m.withStatus 1)
  | "cp" =>
    match others with
    | [source, target] => some (m.copy source target)
    | _ => some (m.withStatus 1)
  | "mv" =>
    match others with
    | [source, target] => some (m.move source target)
    | _ => some (m.withStatus 1)
  | "ln" =>
    match letters.contains 's', others with
    | false, [source, target] => some (m.link (letters.contains 'f') source target)
    | _, _ => none
  | _ => none

end Machine

end TrafficWarden.Shell
