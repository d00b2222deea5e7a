import Polyloft.Declaration.Signature
import Polyloft.Document.Comment
import Polyloft.Query.Symbol

/-!
# Polyloft.Query.Hover

What is shown for the word under the cursor, in this order: the documentation of a keyword, a
member of a package or a global function, a member of the receiver's type, a function or class-like
of this document or of an imported module, a visible variable, a built-in type.
-/

namespace Polyloft

/-- What is shown for a word. -/
structure Hover where
  signature : String
  documentation : Option String := none
  location : Option Location := none
deriving DecidableEq, Repr

namespace Analysis

variable (a : Analysis)

/-- What is shown for a declaration of the document. -/
def declarationHover (d : Declaration) : Infer Hover := do
  let signature ← a.signature d
  let documentation ← Infer.ofExcept (a.document.commentAbove d.line)
  return ⟨signature, documentation, some (a.locationOf d)⟩

/-- What is shown for a member of a value of a named type. -/
def namedMemberHover (type : Ty) (name word : String) : Infer (Option Hover) :=
  match a.catalog.methodSignature? type word with
  | some signature =>
    pure (some ⟨signature, (a.catalog.method? type word).bind fun f => nonempty? f.description,
      none⟩)
  | none =>
    match a.table.inheritedMember? name word with
    | some d => some <$> a.declarationHover d
    | none =>
      if (a.table.classLike? name).any fun d => d.form == .enumType then
        pure (((enumStatics ++ enumFields).find? fun m => m.name == word).map fun m =>
          ⟨name ++ "." ++ m.signature name, none, none⟩)
      else pure none

/-- What is shown for a member, the first of the given types that has it deciding. The types must be
named ones. -/
def memberHover (word : String) : List Ty → Infer (Option Hover)
  | [] => pure (if word = "toString" then some ⟨toStringSignature, none, none⟩ else none)
  | .named name args :: types => do
    match ← a.namedMemberHover (.named name args) name word with
    | some h => pure (some h)
    | none => memberHover word types
  | _ :: _ => Infer.ofExcept (.error .notNamed)

/-- What is shown for a word after a receiver. -/
def receiverHover (receiver : List Token) (word : String) (line : Int) : Infer (Option Hover) :=
  match a.packageOf? receiver line with
  | some p =>
    pure ((p.member? word).map fun m => ⟨m.signature, nonempty? m.description, none⟩)
  | none => do
    let type ← a.inferTokens receiver line
    a.memberHover word type.alternatives

/-- What is shown for a word of the catalog that no declaration hides. -/
def globalHover? (word : String) (line : Int) : Option Hover :=
  (a.catalog.global? word).bind fun f =>
    if (a.visible? word line).isNone then
      some ⟨f.signature, nonempty? f.description, none⟩
    else none

/-- What is shown for an imported word. Nothing is remembered yet about its module. -/
def importedHover? (word : String) (resolver : Resolver) : Except Fault (Option Hover) :=
  match a.imported? word resolver with
  | none => .ok none
  | some i =>
    match i.declaration with
    | none => .ok none
    | some d => some <$> (i.module.declarationHover d).answer

/-- What is shown for the name of a built-in type. -/
def typeHover? (word : String) : Option Hover :=
  match a.catalog.type? word with
  | some t => some ⟨word, some t.description, none⟩
  | none => if a.catalog.typeNames.contains word then some ⟨word, none, none⟩ else none

/-- What is shown for a word that is no member. -/
def plainHover (word : String) (line : Int) (resolver : Resolver) : Infer (Option Hover) :=
  match (a.catalog.keywordDoc? word).map (fun doc => Hover.mk word (some doc) none) with
  | some h => pure (some h)
  | none =>
    match a.globalHover? word line with
    | some h => pure (some h)
    | none =>
      match a.topLevel? word line with
      | some d => some <$> a.declarationHover d
      | none => do
        match ← Infer.ofExcept (a.importedHover? word resolver) with
        | some h => pure (some h)
        | none =>
          match a.visible? word line with
          | some d => some <$> a.declarationHover d
          | none => pure (a.typeHover? word)

/-- What is shown for the word at a position, or for `word` in its place. -/
def hover (position : Position) (word : Option String) (resolver : Resolver) :
    Infer (Option Hover) :=
  match a.queriedWord? position word with
  | none => pure none
  | some (word, start) =>
    match a.document.receiverAt? position.line start with
    | some receiver => a.receiverHover receiver word position.line
    | none => a.plainHover word position.line resolver

end Analysis

end Polyloft
