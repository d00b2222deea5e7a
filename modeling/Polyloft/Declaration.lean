import Polyloft.Declaration.Mutability
import Polyloft.Diagnostic
import Polyloft.Parameter
import Polyloft.Scope.Tree

/-!
# Polyloft.Declaration

Declared names and the table of all of them. A declaration remembers the form in which it was
written, where its name stands, and the frame it lives in; the table keeps declarations in source
order, duplicates included. Which declaration of a name is meant at a line is a question about the
scope tree and answered by `DeclarationTable.visible?`.
-/

namespace Polyloft

/-- The forms in which names are declared. -/
inductive DeclarationForm where
  | classType
  | enumType
  | recordType
  | interfaceType
  | function
  | constructor
  | signature
  | variable (mutability : Mutability)
  | parameter
  | loopVariable
  | caughtError
  | enumValue
  | component
deriving DecidableEq, Repr

/-- What a declared name stands for. -/
inductive DeclarationKind where
  | classLike
  | function
  | variable
deriving DecidableEq, Repr

namespace DeclarationForm

/-- What a name declared in this form stands for. -/
def kind : DeclarationForm → DeclarationKind
  | .classType | .enumType | .recordType | .interfaceType => .classLike
  | .function | .constructor | .signature => .function
  | _ => .variable

/-- The word for the form. -/
def keyword : DeclarationForm → String
  | .classType => "class"
  | .enumType => "enum"
  | .recordType => "record"
  | .interfaceType => "interface"
  | .function => "def"
  | .constructor => "constructor"
  | .signature => "signature"
  | .variable m => m.keyword
  | .parameter => "param"
  | .loopVariable => "for"
  | .caughtError => "catch"
  | .enumValue => "enum_value"
  | .component => "component"

/-- The mutability of a variable declared by one of the four words for it. -/
def mutability? : DeclarationForm → Option Mutability
  | .variable m => some m
  | _ => none

end DeclarationForm

/-- A declared name. `frame` is the frame it lives in, `body` the frame it opens. -/
structure Declaration where
  name : String
  form : DeclarationForm
  line : Nat
  column : Nat
  frame : Nat
  declaredType : Option Ty := none
  typeText : Option String := none
  initializer : Option String := none
  params : List Parameter := []
  returnText : Option String := none
  parent : Option String := none
  implements : List String := []
  typeParams : List String := []
  body : Option Nat := none
  owner : Option String := none
deriving Repr

/-- What tells declarations apart: the name and where it stands. -/
structure DeclarationKey where
  name : String
  line : Nat
  column : Nat
deriving DecidableEq, Repr

namespace Declaration

/-- What the name stands for. -/
def kind (d : Declaration) : DeclarationKind :=
  d.form.kind

/-- A variable of any form. -/
def isVariable (d : Declaration) : Bool :=
  d.kind == .variable

/-- The key of the declaration. -/
def key (d : Declaration) : DeclarationKey :=
  ⟨d.name, d.line, d.column⟩

/-- The column just past the name. -/
def stopColumn (d : Declaration) : Nat :=
  d.column + d.name.length

/-- Declared as `const` or `final`. -/
def isConstant (d : Declaration) : Bool :=
  d.form.mutability?.any Mutability.isConstant

/-- May the declaration be meant on a line of its frame? Functions and class-likes may be used
before they are declared, variables may not. -/
def reaches (d : Declaration) (line : Int) : Bool :=
  !(d.isVariable && line < (d.line : Int))

end Declaration

/-- A name brought in from another module. -/
structure ImportedSymbol where
  name : String
  module : String
  line : Nat
  column : Nat
deriving DecidableEq, Repr

/-- An import of names from one module. -/
structure ImportStatement where
  module : String
  line : Nat
  symbols : List ImportedSymbol
deriving DecidableEq, Repr

/-- A variable declared with several words for its mutability, which is not a declaration. -/
structure StackedDeclarators where
  line : Nat
  start : Nat
  stop : Nat
  words : List String
deriving DecidableEq, Repr

/-- Where the words stand. -/
def StackedDeclarators.range (s : StackedDeclarators) : Range :=
  ⟨s.line, s.start, s.stop⟩

/-- What is wrong with the words. -/
def StackedDeclarators.message (s : StackedDeclarators) : String :=
  "Cannot use multiple declarators (" ++ " ".intercalate s.words ++ "). Use only one."

/-- Everything a document declares, in source order. -/
structure DeclarationTable where
  declarations : List Declaration := []
  imports : List ImportStatement := []
  stacked : List StackedDeclarators := []
deriving Repr

namespace DeclarationTable

variable (table : DeclarationTable)

/-- The first declaration of a name. -/
def lookup? (name : String) : Option Declaration :=
  table.declarations.find? fun d => d.name == name

/-- The first declaration of each name. -/
def symbols : List Declaration :=
  table.declarations.foldl
    (fun found d => if found.any (·.name == d.name) then found else found ++ [d]) []

/-- The first variable of each name declared with the given mutability. -/
def firstWith (m : Mutability) : List Declaration :=
  table.declarations.foldl
    (fun found d =>
      if d.form.mutability? != some m || found.any (·.name == d.name) then found
      else found ++ [d]) []

/-- Is a variable of this name declared as `const` or `final` anywhere? -/
def hasConstant (name : String) : Bool :=
  (table.firstWith .const).any (·.name == name) || (table.firstWith .final).any (·.name == name)

/-- The declarations that live in a frame. -/
def inFrame (frame : Nat) : List Declaration :=
  table.declarations.filter fun d => d.frame == frame

/-- Of the declarations of a name in one frame, the one that is meant on a line: the last variable
declared up to there, or else the first declaration that is not a variable. -/
def chosen (name : String) (line : Int) (ds : List Declaration) : Option Declaration :=
  ds.foldl
    (fun found d =>
      if d.name == name && d.reaches line && (found.isNone || d.isVariable) then some d
      else found) none

/-- The declaration of a name that is meant on a line, the innermost frame first. -/
def visible? (name : String) (line : Int) (tree : ScopeTree) : Option Declaration :=
  (tree.around line).findSome? fun f => chosen name line (table.inFrame f.id)

/-- Every declaration that can be used on a line and is not shadowed, innermost first. -/
def visibleNames (line : Int) (tree : ScopeTree) : List Declaration :=
  ((tree.around line).flatMap fun f => table.inFrame f.id).foldl
    (fun found d =>
      if found.any (·.name == d.name) || !d.reaches line then found else found ++ [d]) []

/-- The first class-like of a name. -/
def classLike? (name : String) : Option Declaration :=
  table.declarations.find? fun d => d.kind == .classLike && d.name == name

/-- The members of a class-like. -/
def members (owner : String) : List Declaration :=
  table.declarations.filter fun d => d.owner == some owner

/-- The first member of a class-like with a given name. -/
def member? (owner name : String) : Option Declaration :=
  table.declarations.find? fun d => d.owner == some owner && d.name == name

/-- The values of an enumeration. -/
def enumValues (owner : String) : List Declaration :=
  (table.members owner).filter fun d => d.form == .enumValue

/-- The first import of a name. -/
def imported? (name : String) : Option ImportedSymbol :=
  (table.imports.flatMap ImportStatement.symbols).find? fun s => s.name == name

/-- The diagnostics that collecting declarations gives rise to. -/
def diagnostics : List Diagnostic :=
  table.stacked.map fun s =>
    ⟨s.range, s.message, .error, "PF-E003", "multiple-declarators"⟩

end DeclarationTable

end Polyloft
