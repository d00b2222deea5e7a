import Polyloft.Parameter
import Polyloft.Ty.Parser
import Polyloft.Value

/-!
# Polyloft.Catalog

What the language provides without any document: keywords with their documentation, global
functions, packages of functions and constants, and built-in types with their methods. A catalog
is plain data. In each list a name occurs once, and look-ups go by name. Packages and types are
named by scalars: one that is named by anything but a text is listed, and no look-up finds it.
-/

namespace Polyloft

/-- What stands before the name of a member: the name of its owner and a dot, if the owner has a
name that counts as given. -/
def ownerQualifier (owner : Scalar) : String :=
  if owner.isGiven then owner.text ++ "." else ""

/-- A function of the language, of a package or of a built-in type. A function of the language
has no owner. -/
structure CatalogFunction where
  name : String
  params : List Parameter
  returns : String
  description : String := ""
  owner : Scalar := .null
deriving Repr

namespace CatalogFunction

/-- The type of a call. -/
def returnType (f : CatalogFunction) : Ty :=
  Ty.ofString f.returns

/-- The signature without the owner. -/
def shortSignature (f : CatalogFunction) : String :=
  f.name ++ "(" ++ Parameter.renderList f.params ++ ") -> " ++ f.returns

/-- The signature, qualified by the owner if there is one. -/
def signature (f : CatalogFunction) : String :=
  ownerQualifier f.owner ++ f.shortSignature

end CatalogFunction

/-- A constant of a package. -/
structure CatalogConstant where
  name : String
  type : String
  value : String
  description : String
  owner : Scalar
deriving Repr

/-- The constant with its type and value, qualified by its package. -/
def CatalogConstant.signature (c : CatalogConstant) : String :=
  ownerQualifier c.owner ++ c.name ++ ": " ++ c.type ++ " = " ++ c.value

/-- A member of a package. -/
inductive PackageMember where
  | function (f : CatalogFunction)
  | constant (c : CatalogConstant)
deriving Repr

namespace PackageMember

/-- The signature of the member. -/
def signature : PackageMember → String
  | .function f => f.signature
  | .constant c => c.signature

/-- What the catalog says about the member. -/
def description : PackageMember → String
  | .function f => f.description
  | .constant c => c.description

end PackageMember

/-- A package. -/
structure CatalogPackage where
  name : Scalar
  description : String
  functions : List CatalogFunction
  constants : List CatalogConstant
deriving Repr

namespace CatalogPackage

/-- The function of a given name. -/
def function? (p : CatalogPackage) (name : String) : Option CatalogFunction :=
  p.functions.find? fun f => f.name == name

/-- The constant of a given name. -/
def constant? (p : CatalogPackage) (name : String) : Option CatalogConstant :=
  p.constants.find? fun c => c.name == name

/-- The member of a given name; functions come before constants. -/
def member? (p : CatalogPackage) (name : String) : Option PackageMember :=
  ((p.function? name).map .function).or ((p.constant? name).map .constant)

end CatalogPackage

/-- A built-in type with its type parameters and methods. -/
structure CatalogType where
  name : Scalar
  typeParams : List String
  description : String
  methods : List CatalogFunction
deriving Repr

namespace CatalogType

/-- The method of a given name. -/
def method? (t : CatalogType) (name : String) : Option CatalogFunction :=
  t.methods.find? fun f => f.name == name

/-- Type parameters bound to the arguments of a receiver; of a repeated parameter the last
binding counts. -/
def bindings (t : CatalogType) (args : List Ty) : List (String × Ty) :=
  (t.typeParams.mapIdx fun i p => (p, Ty.arg args i)).reverse

end CatalogType

/-- Everything the language provides. -/
structure Catalog where
  keywords : List (String × String) := []
  typeNames : List String := []
  globals : List CatalogFunction := []
  packages : List CatalogPackage := []
  types : List CatalogType := []
deriving Repr

namespace Catalog

variable (catalog : Catalog)

/-- The documentation of a keyword. -/
def keywordDoc? (word : String) : Option String :=
  catalog.keywords.lookup word

/-- The global function of a given name. -/
def global? (name : String) : Option CatalogFunction :=
  catalog.globals.find? fun f => f.name == name

/-- The package of a given name. -/
def package? (name : String) : Option CatalogPackage :=
  catalog.packages.find? fun p => p.name == .str name

/-- The built-in type of a given name. -/
def type? (name : String) : Option CatalogType :=
  catalog.types.find? fun t => t.name == .str name

/-- A member of a package. -/
def packageMember? (package name : String) : Option PackageMember :=
  (catalog.package? package).bind (·.member? name)

/-- A method of a receiver of a built-in type. -/
def method? (receiver : Ty) (name : String) : Option CatalogFunction :=
  match receiver with
  | .named n _ => (catalog.type? n).bind (·.method? name)
  | _ => none

/-- The type of a method call, with the receiver's arguments in place of type parameters. -/
def methodType? (receiver : Ty) (method : String) : Option Ty :=
  match receiver with
  | .named n args =>
    (catalog.type? n).bind fun t =>
      (t.method? method).map fun f => f.returnType.substitute (t.bindings args)
  | _ => none

/-- A parameter with type parameters replaced. -/
def renderBound (bindings : List (String × Ty)) (p : Parameter) : String :=
  if p.isTyped then p.renderName ++ ": " ++ (p.type.substitute bindings).render else p.render

/-- The signature of a method, with the receiver's arguments in place of type parameters. -/
def methodSignature? (receiver : Ty) (method : String) : Option String :=
  match receiver with
  | .named n args =>
    (catalog.type? n).bind fun t =>
      (t.method? method).map fun f =>
        let bindings := t.bindings args
        receiver.render ++ "." ++ f.name ++ "(" ++
          ", ".intercalate (f.params.map (renderBound bindings)) ++ ") -> " ++
          (f.returnType.substitute bindings).render
  | _ => none

end Catalog

end Polyloft
