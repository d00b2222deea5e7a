import Polyloft.Catalog
import Polyloft.Failure
import Polyloft.Value

/-!
# Polyloft.Catalog.Reader

A catalog from structured data. Absent and empty parts are allowed everywhere; a part of the wrong
shape is an error that names the place. Where a list names something twice the last entry counts.
What becomes text has to be writable; of several errors the first in the order of reading counts.
-/

namespace Polyloft

/-- Why data is not a catalog. -/
inductive CatalogError where
  | rootNotMapping
  | notMapping (entry : String)
  | notList (entry : String)
  | functionWithoutName (entry : String)
  | constantWithoutName (entry : String)
  | paramsNotList (entry : String)
  | unreadable (reason : String)
  | invalidYaml
  /-- A scalar has the form of a number, a date or a character, but there is none such. -/
  | noSuchValue
  /-- A number in parts of sixty has too many of them. -/
  | outOfRange
  /-- A whole number has too many digits to be written. -/
  | numberTooLong
deriving DecidableEq, Repr

/-- The failure that an error is reported as. -/
def CatalogError.failure : CatalogError → Failure
  | .rootNotMapping => ⟨.catalog none, "catalog root must be a mapping", none⟩
  | .notMapping entry => ⟨.catalog (some entry), "must be a mapping", none⟩
  | .notList entry => ⟨.catalog (some entry), "must be a list", none⟩
  | .functionWithoutName entry => ⟨.catalog (some entry), "function entries need a 'name'", none⟩
  | .constantWithoutName entry => ⟨.catalog (some entry), "constant entries need a 'name'", none⟩
  | .paramsNotList entry => ⟨.catalog (some entry), "'params' must be a list", none⟩
  | .unreadable reason => ⟨.catalog none, "cannot read catalog: " ++ reason, none⟩
  | .invalidYaml => ⟨.catalog none, "invalid YAML", none⟩
  | .noSuchValue => ⟨.catalog none, "there is no such number, date or character", none⟩
  | .outOfRange => ⟨.catalog none, "number out of range", none⟩
  | .numberTooLong => ⟨.catalog none, "number too long to be written", none⟩

namespace Catalog

/-- A field that is given, or nothing. -/
def givenField? (data : Value) (key : String) : Option Value :=
  (data.get? key).filter Value.isGiven

/-- The items of a list field; an absent or empty field has none. -/
def listField (data : Value) (key entry : String) : Except CatalogError (List Value) :=
  match givenField? data key with
  | none => .ok []
  | some (.list items) => .ok items
  | some _ => .error (.notList entry)

/-- The fields of an object field; an absent or empty field has none. -/
def objectField (data : Value) (key entry : String) :
    Except CatalogError (List (Scalar × Value)) :=
  match givenField? data key with
  | none => .ok []
  | some (.object fields) => .ok fields
  | some _ => .error (.notMapping entry)

/-- A value as text. -/
def readText (v : Value) : Except CatalogError String :=
  if v.isWritable then .ok v.text else .error .numberTooLong

/-- A field as text, if the field is there at all. -/
def textField (data : Value) (key dflt : String) : Except CatalogError String :=
  match data.get? key with
  | none => .ok dflt
  | some v => readText v

/-- A function, method or global. -/
def readFunction (owner : Scalar) (entry : String) (data : Value) :
    Except CatalogError CatalogFunction := do
  match data.get? "name" with
  | none => throw (.functionWithoutName entry)
  | some nameData =>
    let name ← readText nameData
    let params ← match givenField? data "params" with
      | none => pure []
      | some (.list params) => pure params
      | some _ => throw (.paramsNotList (entry ++ "." ++ name))
    let params ← params.mapM readText
    let returns ← textField data "returns" "Void"
    let description ← textField data "description" ""
    return {
      name
      params := Parameter.parseList (", ".intercalate params).toList 0
      returns
      description
      owner }

/-- A constant of a package. -/
def readConstant (owner : Scalar) (entry : String) (data : Value) :
    Except CatalogError CatalogConstant := do
  match data.get? "name" with
  | none => throw (.constantWithoutName entry)
  | some nameData =>
    let name ← readText nameData
    let type ← textField data "type" "Any"
    let value ← textField data "value" ""
    let description ← textField data "description" ""
    return { name, type, value, description, owner }

/-- The entries of a list in the order of their names' first places, each name with its last
entry. -/
def lastByName {α : Type} (name : α → String) (entries : List α) : List α :=
  (collectFields (· == ·) (entries.map fun e => (name e, e))).map Prod.snd

/-- Functions from a list field. -/
def readFunctions (owner : Scalar) (entry : String) (data : Value) (key : String) :
    Except CatalogError (List CatalogFunction) := do
  let items ← listField data key entry
  let functions ← items.mapM (readFunction owner entry)
  return lastByName CatalogFunction.name functions

/-- A package. -/
def readPackage (name : Scalar) (data : Value) : Except CatalogError CatalogPackage := do
  let entry := "packages." ++ (← readText (.scalar name))
  match data with
  | .object _ =>
    let functions ← readFunctions name entry data "functions"
    let items ← listField data "constants" entry
    let constants ← items.mapM (readConstant name entry)
    let description ← textField data "description" ""
    return { name, description, functions, constants := lastByName CatalogConstant.name constants }
  | _ => throw (.notMapping entry)

/-- A built-in type. -/
def readType (name : Scalar) (data : Value) : Except CatalogError CatalogType := do
  let entry := "classes." ++ (← readText (.scalar name))
  match data with
  | .object _ =>
    let methods ← readFunctions name entry data "methods"
    let params ← listField data "params" entry
    let typeParams ← params.mapM readText
    let description ← textField data "description" ""
    return { name, typeParams, description, methods }
  | _ => throw (.notMapping entry)

/-- A keyword with its documentation. -/
def readKeyword (name : Scalar) (data : Value) : Except CatalogError (String × String) := do
  return (← readText (.scalar name), ← readText data)

/-- A catalog from data. Keywords are texts, so two that are named by different scalars of one
text are the same. -/
def ofValue (data : Value) : Except CatalogError Catalog := do
  match data with
  | .object _ =>
    let keywords ← objectField data "keywords" "keywords"
    let typeNames ← listField data "types" "types"
    let globals ← readFunctions .null "globals" data "globals"
    let packages ← objectField data "packages" "packages"
    let packages ← packages.mapM fun p => readPackage p.1 p.2
    let types ← objectField data "classes" "classes"
    let types ← types.mapM fun t => readType t.1 t.2
    let keywords ← keywords.mapM fun k => readKeyword k.1 k.2
    let typeNames ← typeNames.mapM readText
    return { keywords := collectFields (· == ·) keywords, typeNames, globals, packages, types }
  | _ => throw .rootNotMapping

end Catalog

end Polyloft
