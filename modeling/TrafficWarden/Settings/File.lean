import TrafficWarden.Catalog.Toml
import TrafficWarden.Files.Tree
import TrafficWarden.Settings.Document
import TrafficWarden.Settings.Environment
import TrafficWarden.Toml.Writer

/-!
# Settings files

Settings come from a file in TOML, with those of the environment laid over it. A file that is named
must be there; the file of the platform may be missing.
-/

namespace TrafficWarden.Settings

open Files

/-- Where the settings of a platform are kept, by the directory for the user's configuration. -/
def platformPath (configHome : String) : String := configHome ++ "/netcop/config.toml"

def ofLayers? (file : Toml) (environment : Environment) : Option Settings :=
  ofNode? .loose (Toml.overlay file (ofEnvironment environment)).toNode

/-- The table in a file; what is no file counts as an empty one. -/
def readTable? (files : Tree) (path : String) : Option Toml :=
  if files.isFile path then (files.read path).toOption.bind Toml.read? else some (.table [])

def readLayers (files : Tree) (path : String) (environment : Environment) :
    Except SettingsFault Settings :=
  match (readTable? files path).bind fun file => ofLayers? file environment with
  | some s => .ok s
  | none => .error .unreadable

def load (files : Tree) (platform : String) (environment : Environment) :
    Option String → Except SettingsFault Settings
  | none => readLayers files platform environment
  | some path =>
    if files.exists? path then readLayers files path environment else .error (.notFound path)

/-- The greatest number that can be written as an interval. -/
def greatestInterval : Nat := 0x7FFFFFFFFFFFFFFF

def line (name value : String) : String := name ++ " = " ++ value ++ "\n"

def fileText (s : Settings) : String :=
  "[interfaces]\n" ++ line "outside" (Toml.writeString s.interfaces.outside) ++
  line "inside" (Toml.writeString s.interfaces.inside) ++
  "\n[dispatch]\n" ++ line "script_path" (Toml.writeString s.scriptPath) ++
  line "shell" (Toml.writeString s.shell) ++
  line "interval_secs" (toString s.interval.toNat) ++
  "\n[catalog]\n" ++ line "path" (Toml.writeString s.catalogPath)

def fileText? (s : Settings) : Except SettingsFault String :=
  if s.interval.toNat ≤ greatestInterval then .ok s.fileText else .error .unserializable

/-- Writes settings to a file. The directories on the way are made first. -/
def save (s : Settings) (files : Tree) (path : String) (now : Calendar.Timestamp) :
    Except SettingsFault Unit × Tree :=
  match files.makeParents path now with
  | .error cause => (.error (.io cause), files)
  | .ok files =>
    match s.fileText? with
    | .error f => (.error f, files)
    | .ok text =>
      match files.write path text now with
      | .error cause => (.error (.io cause), files)
      | .ok files => (.ok (), files)

/-- Writes the standard settings to a file, which may not be there unless it is to be replaced. -/
def init (files : Tree) (path : String) (force : Bool) (now : Calendar.Timestamp) :
    Except SettingsFault Settings × Tree :=
  if files.exists? path && !force then (.error (.alreadyExists path), files)
  else
    let (saved, files) := standard.save files path now
    (saved.map fun _ => standard, files)

end TrafficWarden.Settings
