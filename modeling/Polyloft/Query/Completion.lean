import Polyloft.Declaration.Signature
import Polyloft.Document.Comment
import Polyloft.Query.Symbol

/-!
# Polyloft.Query.Completion

What can be written at the cursor. After a receiver and a dot these are the members of the
receiver's type, elsewhere everything that is in scope. Of the candidates those are kept that start
with the part of the word already written, each label once.
-/

namespace Polyloft

/-- What a candidate is. -/
inductive CompletionKind where
  | keyword
  | classType
  | interfaceType
  | enumType
  | enumMember
  | function
  | method
  | field
  | variable
  | constant
  | module
deriving DecidableEq, Repr

/-- The word for a kind of candidate. -/
def CompletionKind.label : CompletionKind → String
  | .keyword => "keyword"
  | .classType => "class"
  | .interfaceType => "interface"
  | .enumType => "enum"
  | .enumMember => "enum_member"
  | .function => "function"
  | .method => "method"
  | .field => "field"
  | .variable => "variable"
  | .constant => "constant"
  | .module => "module"

/-- A candidate. -/
structure CompletionItem where
  label : String
  kind : CompletionKind
  detail : String := ""
  documentation : Option String := none
deriving DecidableEq, Repr

namespace CompletionItem

/-- A function of the catalog. -/
def ofFunction (f : CatalogFunction) : CompletionItem :=
  ⟨f.name, .function, f.signature, nonempty? f.description⟩

/-- A constant of a package. -/
def ofConstant (c : CatalogConstant) : CompletionItem :=
  ⟨c.name, .constant, c.signature, nonempty? c.description⟩

/-- A package, which must be named by a text. -/
def ofPackage (p : CatalogPackage) : Except Fault CompletionItem :=
  match p.name with
  | .str name => .ok ⟨name, .module, "Built-in package", nonempty? p.description⟩
  | _ => .error .notText

/-- A method of a built-in type, for a receiver of that type. -/
def ofMethod (catalog : Catalog) (receiver : Ty) (f : CatalogFunction) : CompletionItem :=
  ⟨f.name, .method, (catalog.methodSignature? receiver f.name).getD f.name,
    nonempty? f.description⟩

end CompletionItem

namespace Analysis

variable (a : Analysis)

/-! ### Members -/

/-- A member that a class-like declares. Values and constructors are not reached through one. -/
def memberItem? (d : Declaration) : Except Fault (Option CompletionItem) :=
  if d.form == .enumValue || d.form == .constructor then .ok none
  else do
    let documentation ← a.document.commentAbove d.line
    if d.kind == .function then return some ⟨d.name, .method, "Method", documentation⟩
    else return some ⟨d.name, .field, "Field", documentation⟩

/-- The values, functions and fields of an enumeration. -/
def enumItems (enum : String) : List CompletionItem :=
  (a.table.enumValues enum).map (fun v => ⟨v.name, .enumMember, enum ++ "." ++ v.name, none⟩) ++
    enumStatics.map (fun m => ⟨m.name, .method, m.signature enum, none⟩) ++
    enumFields.map (fun m => ⟨m.name, .field, m.signature enum, none⟩)

/-- The members of a value of a type, which must be a named one. -/
def typeItems (type : Ty) : Except Fault (List CompletionItem) :=
  match type with
  | .named name _ => do
    let builtin := ((a.catalog.type? name).map fun t =>
      t.methods.map (CompletionItem.ofMethod a.catalog type)).getD []
    let enum := if (a.table.classLike? name).any fun d => d.form == .enumType then
      a.enumItems name else []
    let declared ← (a.table.inheritedMembers name).mapM a.memberItem?
    return builtin ++ enum ++ declared.filterMap id
  | _ => .error .notNamed

/-- What can be written after a receiver and a dot. -/
def memberItems (receiver : List Token) (line : Int) : Infer (List CompletionItem) :=
  match a.packageOf? receiver line with
  | some p =>
    pure (p.functions.map CompletionItem.ofFunction ++ p.constants.map CompletionItem.ofConstant)
  | none => do
    let type ← a.inferTokens receiver line
    let items ← Infer.ofExcept (type.alternatives.mapM a.typeItems)
    pure (items.flatten ++ [⟨"toString", .method, toStringSignature, none⟩])

/-! ### Scope -/

/-- A declaration that is in scope. -/
def scopeItem (d : Declaration) : Infer CompletionItem := do
  let documentation ← Infer.ofExcept (a.document.commentAbove d.line)
  match d.kind with
  | .classLike =>
    let kind := match d.form with
      | .interfaceType => CompletionKind.interfaceType
      | .enumType => .enumType
      | _ => .classType
    pure ⟨d.name, kind, "User-defined class", documentation⟩
  | .function => do
    return ⟨d.name, if d.owner.isSome then .method else .function, ← a.signature d, documentation⟩
  | .variable =>
    if d.form == .enumValue then pure ⟨d.name, .enumMember, enumValueSignature d, none⟩
    else if d.owner.isSome then pure ⟨d.name, .field, "Field", documentation⟩
    else pure ⟨d.name, if d.isConstant then .constant else .variable, "Variable", documentation⟩

/-- What the catalog offers everywhere. -/
def catalogItems (catalog : Catalog) : Except Fault (List CompletionItem) := do
  let keywords := catalog.keywords.map fun (word, doc) =>
    CompletionItem.mk word .keyword "keyword" (some doc)
  let types := catalog.typeNames.map fun name =>
    CompletionItem.mk name .classType "Built-in type"
      ((catalog.type? name).map CatalogType.description)
  let packages ← catalog.packages.mapM CompletionItem.ofPackage
  return keywords ++ types ++ catalog.globals.map CompletionItem.ofFunction ++ packages

/-- What imports bring in. -/
def importItems (imports : List ImportStatement) : List CompletionItem :=
  imports.flatMap fun i => i.symbols.map fun s =>
    ⟨s.name, .classType, "Imported from " ++ i.module, none⟩

/-- What can be written on a line where no member is asked for. Methods are not in scope by their
plain names. -/
def scopeItems (line : Int) : Infer (List CompletionItem) := do
  let visible := (a.table.visibleNames line a.tree).filter fun d =>
    d.owner.isNone || d.kind != .function
  let provided ← Infer.ofExcept (catalogItems a.catalog)
  let declared ← visible.mapM a.scopeItem
  pure (provided ++ declared ++ importItems a.table.imports)

/-! ### The cursor -/

/-- The part of a word written before the cursor, and the tokens before it, nearest first. -/
def typedPart (tokens : List Token) (character : Int) : String × List Token :=
  match (tokens.filter fun t => (t.stop : Int) ≤ character).reverse with
  | [] => ("", [])
  | t :: before =>
    if (t.kind == .identifier || t.kind == .keyword) && (t.stop : Int) == character then
      (t.text, before)
    else ("", t :: before)

/-- The items whose labels start with the written part, each label once. -/
def matchingItems (typed : String) (items : List CompletionItem) : List CompletionItem :=
  items.foldl
    (fun kept item =>
      if kept.any (·.label == item.label) || !typed.toList.isPrefixOf item.label.toList then kept
      else kept ++ [item]) []

/-- What can be written at a position. -/
def complete (position : Position) : Infer (List CompletionItem) :=
  match a.document.line? position.line with
  | none => pure []
  | some line => do
    let (typed, before) := typedPart line.codeTokens position.character
    let items ← match MemberContext.after before with
      | .plain => a.scopeItems position.line
      | .member receiver =>
        if receiver.isEmpty then pure [] else a.memberItems receiver position.line
    pure (matchingItems typed items)

end Analysis

end Polyloft
