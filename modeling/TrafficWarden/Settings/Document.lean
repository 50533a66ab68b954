import TrafficWarden.Catalog.Json
import TrafficWarden.Settings.Basic

/-!
# Documents of settings

Settings are a table of three tables. What is left out has its standard value.
-/

namespace TrafficWarden

namespace Settings

open Node Fields

def readInterfaces (form : ListRows) (n : Node) : Option Interfaces := do
  let f ← n.fields? form ["outside", "inside"]
  let outside ← withDefault standard.interfaces.outside text? "outside" f
  let inside ← withDefault standard.interfaces.inside text? "inside" f
  return ⟨outside, inside⟩

/-- The path of the script, the shell and the interval. -/
def readDispatch (form : ListRows) (n : Node) : Option (String × String × UInt64) := do
  let f ← n.fields? form ["script_path", "shell", "interval_secs"]
  let scriptPath ← withDefault standard.scriptPath text? "script_path" f
  let shell ← withDefault standard.shell text? "shell" f
  let interval ← withDefault standard.interval natural? "interval_secs" f
  return (scriptPath, shell, interval)

def readCatalogPath (form : ListRows) (n : Node) : Option String := do
  let f ← n.fields? form ["path"]
  withDefault standard.catalogPath text? "path" f

def ofNode? (form : ListRows) (n : Node) : Option Settings := do
  let f ← n.fields? form ["interfaces", "dispatch", "catalog"]
  let interfaces ← withDefault standard.interfaces (readInterfaces form) "interfaces" f
  let (scriptPath, shell, interval) ←
    withDefault (standard.scriptPath, standard.shell, standard.interval) (readDispatch form)
      "dispatch" f
  let catalogPath ← withDefault standard.catalogPath (readCatalogPath form) "catalog" f
  return ⟨interfaces, scriptPath, shell, interval, catalogPath⟩

def ofJson? (value : Json) : Option Settings := ofNode? .exact value.toNode

end Settings

end TrafficWarden
