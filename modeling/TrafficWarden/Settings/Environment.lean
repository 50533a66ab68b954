import TrafficWarden.Text.Blank
import TrafficWarden.Toml.Number
import TrafficWarden.Toml.Overlay
import TrafficWarden.Toml.Quoted

/-!
# Settings in the environment

A variable whose name begins with `NETCOP_`, in any case, sets what the rest of its name says in
small letters; two underscores stand between the names of tables. Its value may be a number, a
truth value, a quoted text, a list or a table; anything else is a text.
-/

namespace TrafficWarden.Settings

abbrev Environment := List (String × String)

def isValueBlank (c : Char) : Bool :=
  c == ' ' || c == '\t' || c == '\n' || c == '\r' || c == Char.ofNat 12

def skipValueBlanks (cs : List Char) : List Char := cs.dropWhile isValueBlank

def isValueMark (c : Char) : Bool :=
  c == ',' || c == '[' || c == ']' || c == '\x7b' || c == '\x7d'

/-- Digits of one part of a fraction; there may be none. -/
def skipDigits (cs : List Char) : List Char := cs.dropWhile Text.isDigit

def isExponent : List Char → Bool
  | [] => true
  | c :: rest =>
    let digits := (Toml.readSign rest).2
    (c == 'e' || c == 'E') && !digits.isEmpty && digits.all Text.isDigit

def isFraction (cs : List Char) : Bool :=
  let whole := (Toml.readSign cs).2
  match skipDigits whole with
  | '.' :: rest =>
    let after := skipDigits rest
    (whole.length + rest.length != (skipDigits whole).length + after.length) && isExponent after
  | _ => false

/-- A text without quotes: a number if it is one. -/
def bareValue (cs : List Char) : Toml :=
  if cs.contains '.' && isFraction cs then .float (String.ofList cs)
  else match Text.readInteger .uint64 cs with
    | .ok n => .integer n
    | .error _ =>
      match Text.readInteger .int64 cs with
      | .ok n => .integer n
      | .error _ => .string (String.ofList cs)

abbrev Step (α : Type) := List Char → Option (α × List Char)

def readUpTo {α : Type} (close : Char) (item : Step α) : Nat → Step (List α)
  | 0, _ => none
  | fuel + 1, cs =>
    if cs.head? = some close then some ([], cs.drop 1)
    else do
      let (a, rest) ← item cs
      match rest with
      | ',' :: rest =>
        let (as, rest) ← readUpTo close item fuel rest
        return (a :: as, rest)
      | c :: rest => if c = close then return ([a], rest) else none
      | [] => none

def readValueName : Step String
  | '"' :: rest => do
    let (cs, rest) ← Toml.readBasic (rest.length + 1) rest
    return (String.ofList cs, rest)
  | cs =>
    let name := cs.takeWhile Toml.isBareKeyChar
    if name.isEmpty then none else some (String.ofList name, cs.drop name.length)

def readPair (value : Step Toml) : Step (String × Toml) := fun cs => do
  let (name, rest) ← readValueName (skipValueBlanks cs)
  match skipValueBlanks rest with
  | '=' :: rest =>
    let (v, rest) ← value rest
    return ((name, v), skipValueBlanks rest)
  | _ => none

/-- A value, with at most the given number of lists and tables around one another. -/
def readValue : Nat → Step Toml
  | 0, _ => none
  | depth + 1, cs => do
    let (v, rest) ← match skipValueBlanks cs with
      | 't' :: 'r' :: 'u' :: 'e' :: rest => some (Toml.bool true, rest)
      | 'f' :: 'a' :: 'l' :: 's' :: 'e' :: rest => some (.bool false, rest)
      | '\x7b' :: rest => do
        let (pairs, rest) ← readUpTo '\x7d' (readPair (readValue depth)) (rest.length + 1) rest
        some (.table (pairs.foldl (fun entries (name, v) => Toml.assign name v entries) []), rest)
      | '[' :: rest => do
        let (items, rest) ← readUpTo ']' (readValue depth) (rest.length + 1) rest
        some (.array items, rest)
      | '"' :: rest => do
        let (cs, rest) ← Toml.readBasic (rest.length + 1) rest
        some (.string (String.ofList cs), rest)
      | '\'' :: c :: '\'' :: rest => some (.string (String.ofList [c]), rest)
      | '\'' :: _ => none
      | cs =>
        let text := cs.takeWhile fun c => !isValueMark c
        some (bareValue (Text.trim text), cs.drop text.length)
    return (v, skipValueBlanks rest)

def variableValue (raw : String) : Toml :=
  match readValue (raw.length + 1) raw.toList with
  | some (v, []) => v
  | _ => .string raw

def variableStart : String := "netcop_"

/-- The names of tables on the way to a setting. Two underscores or a point stand between them. -/
def splitName : List Char → List (List Char)
  | [] => [[]]
  | '_' :: '_' :: rest => [] :: splitName rest
  | '.' :: rest => [] :: splitName rest
  | c :: rest =>
    match splitName rest with
    | [] => [[c]]
    | piece :: pieces => (c :: piece) :: pieces

def settingPath? (entry : String) : Option (List String) :=
  let name := Text.lower (Text.trim entry.toList)
  let start := variableStart.toList
  if name.take start.length = start && !(Text.trim (name.drop start.length)).isEmpty then
    some ((splitName (name.drop start.length)).map String.ofList)
  else none

/-- A value within tables of the given names. The names after an empty one do not count. -/
def nested (v : Toml) : List String → Toml
  | [] => v
  | name :: rest => if name = "" then v else .table [(name, nested v rest)]

/-- The table of all settings in an environment. A later variable goes over an earlier one. -/
def ofEnvironment (environment : Environment) : Toml :=
  environment.foldl
    (fun lower (entry, raw) =>
      match settingPath? entry with
      | some path => Toml.overlay lower (nested (variableValue raw) path)
      | none => lower)
    (.table [])

end TrafficWarden.Settings
