import Polyloft.Analysis
import Polyloft.Declaration.Lineage
import Polyloft.Module
import Polyloft.Query.Receiver

/-!
# Polyloft.Query.Symbol

What a word stands for: look-ups that hover, go-to-definition and completion share.
-/

namespace Polyloft

/-- A place in a named document. -/
structure Location where
  uri : Option String
  line : Nat
  column : Nat
deriving DecidableEq, Repr

/-- A declaration of an imported module; `declaration` is absent when the module does not declare
the name. -/
structure ImportedDeclaration where
  module : Analysis
  declaration : Option Declaration
  uri : String

namespace Analysis

variable (a : Analysis)

/-- The place of a declaration of the document. -/
def locationOf (d : Declaration) : Location :=
  ⟨a.document.uri, d.line, d.column⟩

/-- The function or class-like that a word means on a line: the visible one, else a class-like
anywhere, else a function that is no member. -/
def topLevel? (word : String) (line : Int) : Option Declaration :=
  ((a.visible? word line).filter fun d => !d.isVariable).or <|
    (a.table.classLike? word).or <|
      (a.table.lookup? word).filter fun d => d.kind == .function && d.owner.isNone

/-- The declaration of an imported word, if its module can be found. -/
def imported? (word : String) (resolver : Resolver) : Option ImportedDeclaration :=
  (a.table.imported? word).bind fun symbol =>
    (resolver.find? symbol.module).map fun source =>
      let module := Analysis.ofText source.text (some source.uri) a.catalog
      ⟨module, (module.table.classLike? word).or (module.table.lookup? word), source.uri⟩

/-- The package that a receiver names, unless something of that name is visible. -/
def packageOf? (receiver : List Token) (line : Int) : Option CatalogPackage :=
  match receiver with
  | [t] =>
    if t.kind == .identifier && (a.visible? t.text line).isNone then a.catalog.package? t.text
    else none
  | _ => none

/-- The word a query is about: the given one, or the one under the position; with the column at
which the word under the position starts. -/
def queriedWord? (position : Position) (word : Option String) : Option (String × Nat) :=
  (a.document.wordAt? position).map fun (found, start, _) =>
    (match word with
      | some w => if w = "" then found else w
      | none => found, start)

end Analysis

/-- A member that every enumeration or each of its values has. -/
structure EnumMember where
  name : String
  /-- How the member is shown, given the name of the enumeration. -/
  signature : String → String

/-- The functions of an enumeration itself. -/
def enumStatics : List EnumMember :=
  [⟨"values", fun e => "values() -> Array<" ++ e ++ ">"⟩,
    ⟨"valueOf", fun e => "valueOf(name: String) -> " ++ e⟩,
    ⟨"size", fun _ => "size() -> Int"⟩,
    ⟨"names", fun _ => "names() -> Array<String>"⟩]

/-- The fields of the values of an enumeration. -/
def enumFields : List EnumMember :=
  [⟨"name", fun _ => "name: String"⟩, ⟨"ordinal", fun _ => "ordinal: Int"⟩]

/-- The conversion to text that every value has. -/
def toStringSignature : String := "toString() -> String"

/-- A text, unless it is empty. -/
def nonempty? (s : String) : Option String :=
  if s = "" then none else some s

end Polyloft
