import TrafficWarden.Settings.Basic

/-!
# Valid settings

Settings are checked as a whole, after all their sources have been joined. The first fault counts,
in the order of the two interfaces, the interval, the script and the shell.
-/

namespace TrafficWarden

/-- The greatest number of bytes in the name of an interface. -/
def interfaceNameLimit : Nat := 15

def interfaceComplaint? (name : String) : Option String :=
  if name = "" then some "interface name is empty"
  else if interfaceNameLimit < name.utf8ByteSize then
    some ("'" ++ name ++ "' is longer than " ++ toString interfaceNameLimit ++ " bytes")
  else if name.toList.any fun c => Text.isBlank c || c == '/' then
    some ("'" ++ name ++ "' contains whitespace or '/'")
  else none

namespace Settings

def fault? (s : Settings) : Option SettingsFault :=
  let outside := s.interfaces.outside
  ((interfaceComplaint? outside).map (.invalid .outside)) <|>
  ((interfaceComplaint? s.interfaces.inside).map (.invalid .inside)) <|>
  (if outside = s.interfaces.inside then
    some (.invalid .inside ("must differ from outside ('" ++ outside ++ "')")) else none) <|>
  (if s.interval = 0 then some (.invalid .interval "must be at least 1") else none) <|>
  (if s.scriptPath = "" then some (.invalid .scriptPath "path is empty") else none) <|>
  (if s.shell = "" then some (.invalid .shell "path is empty") else none)

def validate (s : Settings) : Except SettingsFault Settings :=
  match s.fault? with
  | some f => .error f
  | none => .ok s

end Settings

end TrafficWarden
