import Polyloft.Rule

/-!
# Polyloft.Rule.Declared

Rules about declarations: how class-likes are named, what annotations stand before, and variables
that are declared twice, declared with several words, or constant and yet reassigned. Parameters
without a type and imports that are not used are reported here too.
-/

namespace Polyloft.Rule

/-! ### Names and annotations -/

/-- The word for a class-like at the start of a sentence. -/
def capitalised (form : DeclarationForm) : String :=
  match form with
  | .enumType => "Enum"
  | .recordType => "Record"
  | .interfaceType => "Interface"
  | _ => "Class"

/-- Does the name start with an upper-case letter? Declared names start with an ASCII
character. -/
def startsUpper (name : String) : Bool :=
  name.toList.head?.any Char.isUpper

/-- Class-likes whose names start in lower case. -/
def classNaming : Rule :=
  .ofFindings "class-naming" "PF-W104" .warning
    "Class, enum, record and interface names start upper case." fun a =>
      let misnamed (d : Declaration) : Bool := d.kind == .classLike && !startsUpper d.name
      (a.table.declarations.filter misnamed).map fun d =>
        ⟨d.range, capitalised d.form ++ " names should start with an uppercase letter"⟩

/-- Does a line start a declaration, so that an annotation may stand before it? -/
def startsDeclaration (tokens : List Token) : Bool :=
  match tokens.dropWhile Token.isDeclarationPrefix with
  | [] => !tokens.isEmpty
  | first :: rest =>
    if first.kind == .keyword then declarationWords.contains first.text
    else if first.kind == .identifier && rest.head?.any (·.isSymbol "(") then
      -- A constructor, or a method signature of an interface.
      first.startsUpper || tokens.getLast?.any (·.isSymbol ":") || tokens.any (·.isSymbol "->")
    else false

/-- Is what follows the annotations of a line a declaration? `later` are the lines after it. -/
def annotates (tokens : List Token) (later : List Line) : Bool :=
  if tokens.any (·.kind != .marker) then startsDeclaration tokens
  else (later.find? fun l => !l.isBlank).any fun l => startsDeclaration l.codeTokens

/-- The annotations that stand before no declaration. -/
def danglingIn : List Line → List Finding
  | [] => []
  | line :: later =>
    match line.codeTokens with
    | [] => danglingIn later
    | first :: rest =>
      if first.kind == .marker && !annotates (first :: rest) later then
        ⟨first.range, "Annotations must be followed by a class, method, field, " ++
          "or other valid declaration"⟩ :: danglingIn later
      else danglingIn later

/-- Annotations that stand before no declaration. -/
def danglingMarker : Rule :=
  .ofFindings "dangling-annotation" "PF-W105" .warning
    "``@Annotation`` must precede a declaration." fun a => danglingIn a.document.lines

/-! ### Variables -/

/-- Variables declared with several words. -/
def multipleDeclarators : Rule :=
  .ofFindings "multiple-declarators" "PF-E003" .error
    "``final const x`` style stacking, found by the collector." fun a =>
      a.table.stacked.map fun s => ⟨s.range, s.message⟩

/-- A variable that its frame may hold only once. -/
def isUnique (d : Declaration) : Bool :=
  d.isVariable && d.form != .loopVariable && d.form != .caughtError && d.form != .enumValue

/-- The variables declared again, when those in `first` came before. -/
def duplicatesAfter (first : List Declaration) : List Declaration → List Finding
  | [] => []
  | d :: ds =>
    if isUnique d then
      match first.find? fun e => e.frame == d.frame && e.name == d.name with
      | none => duplicatesAfter (first ++ [d]) ds
      | some e =>
        ⟨d.range, "Variable '" ++ d.name ++ "' is already declared in this scope (line " ++
          toString (e.line + 1) ++ ")"⟩ :: duplicatesAfter first ds
    else duplicatesAfter first ds

/-- Variables declared twice in one frame. -/
def duplicateDeclaration : Rule :=
  .ofFindings "duplicate-declaration" "PF-E004" .error
    "Same variable name declared twice in one scope frame." fun a =>
      duplicatesAfter [] a.table.declarations

/-- An assignment to a constant of an earlier line. Names that no constant bears anywhere are passed
over before they are looked up. -/
def reassignmentIn (a : Analysis) (line : Line) : Option Finding :=
  (assignment? line.codeTokens).bind fun (name, _, _) =>
    if a.table.hasConstant name.text then
      (a.visible? name.text line.index).bind fun d =>
        if d.isConstant && d.line < line.index then
          let word := if d.form == .variable .const then "const" else "final"
          some ⟨name.range, "Cannot reassign " ++ word ++ " variable '" ++ name.text ++
            "' (declared on line " ++ toString (d.line + 1) ++ ")"⟩
        else none
    else none

/-- Assignments to constants. -/
def constReassignment : Rule :=
  .ofFindings "const-reassignment" "PF-E005" .error
    "Assignment to a name whose visible declaration is const or final." fun a =>
      a.document.lines.filterMap (reassignmentIn a)

/-! ### Parameters and imports -/

/-- The parameters of a function that lack a type. -/
def untypedIn (d : Declaration) : List Finding :=
  (d.params.filter fun p => !p.isTyped && !p.variadic).map fun p =>
    let column : Nat := p.column.getD 0
    ⟨⟨d.line, column, (column + p.name.length : Nat)⟩,
      "Function parameters should have type annotations"⟩

/-- Parameters without a type. -/
def untypedParameter : Rule :=
  .ofFindings "untyped-parameter" "PF-W106" .warning
    "Function and constructor parameters should carry a type." fun a =>
      (a.table.declarations.filter fun d => d.kind == .function).flatMap untypedIn

/-- Is there a word boundary between two neighbouring characters? -/
def isBoundary (left right : Option Char) : Bool :=
  left.any Text.isWord != right.any Text.isWord

/-- Does `name` stand as a whole word in a text, before its first closing brace? -/
def mentionsBeforeBrace (name : List Char) (previous : Option Char) (cs : List Char) : Bool :=
  (name.isPrefixOf cs && isBoundary previous name.head? &&
      isBoundary name.getLast? (cs.drop name.length).head?) ||
    match cs with
    | [] => false
    | c :: rest => c != '}' && mentionsBeforeBrace name (some c) rest

/-- Does a string literal mention a name inside `#{...}`? -/
def interpolates (name : List Char) : List Char → Bool
  | [] => false
  | c :: cs =>
    (match c, cs with
      | '#', '{' :: rest => mentionsBeforeBrace name (some '{') rest
      | _, _ => false) || interpolates name cs

/-- Does a token use a name? -/
def usesName (name : String) (t : Token) : Bool :=
  (t.kind == .identifier && t.text == name) ||
    (t.kind == .string && interpolates name.toList t.text.toList)

/-- The imported names that no later line uses. -/
def unusedIn (lines : List Line) (i : ImportStatement) : List Finding :=
  let later := (lines.drop (i.line + 1)).flatMap Line.codeTokens
  (i.symbols.filter fun s => !later.any (usesName s.name)).map fun s =>
    ⟨⟨s.line, s.column, (s.column + s.name.length : Nat)⟩,
      "Imported symbol '" ++ s.name ++ "' is not used"⟩

/-- Imported names that are never used. -/
def unusedImport : Rule :=
  .ofFindings "unused-import" "PF-H201" .hint "Imported symbol never mentioned after its import."
    fun a => a.table.imports.flatMap (unusedIn a.document.lines)

end Polyloft.Rule
