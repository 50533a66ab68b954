import TrafficWarden.Catalog.Format
import TrafficWarden.Catalog.Intake
import TrafficWarden.Files.Tree

/-!
# Catalog files

The format is known before the file is read. To the rest of the program any fault with a catalog
file means that there is no store.
-/

namespace TrafficWarden

inductive CatalogFault where
  | unsupported (path : String)
  | unreadable (path : String) (cause : IoFault)
  | malformed (format : CatalogFormat)
deriving DecidableEq, Repr

def CatalogFault.message : CatalogFault → String
  | .unsupported path =>
    "Unsupported catalog format for " ++ path ++ ": expected .toml, .json, .yaml or .yml"
  | .unreadable path cause => "Cannot read catalog " ++ path ++ ": " ++ cause.message
  | .malformed format => "Invalid " ++ format.name ++ " catalog"

def CatalogFault.toFault (f : CatalogFault) : Fault := .storeUnavailable f.message

/-- Reads a catalog in a format. -/
def Catalog.parse (format : CatalogFormat) (text : String) : Except CatalogFault Catalog :=
  match Catalog.read? format text with
  | some c => .ok c
  | none => .error (.malformed format)

/-- Reads the catalog in a file. -/
def Catalog.load (files : Files.Tree) (path : String) : Except CatalogFault Catalog :=
  match CatalogFormat.ofPath? path with
  | none => .error (.unsupported path)
  | some format =>
    match files.read path with
    | .error cause => .error (.unreadable path cause)
    | .ok text => Catalog.parse format text

/-- The store of the catalog in a file, and a warning for each row that is left out. -/
def Store.load (files : Files.Tree) (path : String) : Except Fault Store × List Warning :=
  match Catalog.load files path with
  | .error f => (.error f.toFault, [])
  | .ok c =>
    let (store, warnings) := c.toStore
    (.ok store, warnings)

end TrafficWarden
