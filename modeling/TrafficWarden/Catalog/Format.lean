import TrafficWarden.Catalog.Json
import TrafficWarden.Catalog.Toml
import TrafficWarden.Catalog.Yaml
import TrafficWarden.Files.Path

/-!
# Formats of catalogs

The extension of a file tells the format of the catalog in it.
-/

namespace TrafficWarden

inductive CatalogFormat where
  | toml
  | json
  | yaml
deriving DecidableEq, Repr

namespace CatalogFormat

def name : CatalogFormat → String
  | toml => "TOML"
  | json => "JSON"
  | yaml => "YAML"

def ofPath? (path : String) : Option CatalogFormat := do
  match Text.lowered (← Files.extension? path) with
  | "toml" => some toml
  | "json" => some json
  | "yaml" => some yaml
  | "yml" => some yaml
  | _ => none

end CatalogFormat

def Catalog.read? : CatalogFormat → String → Option Catalog
  | .json, text => readJson? text
  | .toml, text => readToml? text
  | .yaml, text => readYaml? text

end TrafficWarden
