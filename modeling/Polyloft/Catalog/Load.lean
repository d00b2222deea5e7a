import Polyloft.Catalog.Reader
import Polyloft.FileTree
import Polyloft.Yaml

/-!
# Polyloft.Catalog.Load

A catalog from YAML text. An empty text is an empty catalog.
-/

namespace Polyloft.Catalog

/-- What a fault of the YAML text is for the catalog. -/
def yamlFault : Yaml.YamlError → CatalogError
  | .malformed => .invalidYaml
  | .noSuchValue => .noSuchValue
  | .outOfRange => .outOfRange

/-- The catalog that a YAML text describes. -/
def ofYaml (text : List Char) : Except CatalogError Catalog := do
  let data ← (Value.ofYaml text).mapError yamlFault
  ofValue (if data.isGiven then data else .object [])

/-- The catalog in a file, given what reading the file gave. -/
def ofFile (text : Except FileError (List Char)) : Except CatalogError Catalog :=
  match text with
  | .error e => .error (.unreadable e.message)
  | .ok text => ofYaml text

end Polyloft.Catalog
