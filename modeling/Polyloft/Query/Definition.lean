import Polyloft.Inference
import Polyloft.Query.Symbol

/-!
# Polyloft.Query.Definition

Where the word under the cursor is declared: a member in the class-likes of the receiver's type,
any other word where it is visible, at the top level, or in an imported module. A module that does
not declare the name is still a definition: its beginning.
-/

namespace Polyloft.Analysis

variable (a : Analysis)

/-- The declaration of a member of one of some types, which must be named ones. -/
def memberOf? (word : String) : List Ty → Except Fault (Option Declaration)
  | [] => .ok none
  | .named name _ :: types =>
    match a.table.inheritedMember? name word with
    | some d => .ok (some d)
    | none => memberOf? word types
  | _ :: _ => .error .notNamed

/-- Where an imported word is declared. -/
def importedLocation? (word : String) (resolver : Resolver) : Option Location :=
  (a.imported? word resolver).map fun i =>
    match i.declaration with
    | some d => ⟨some i.uri, d.line, d.column⟩
    | none => ⟨some i.uri, 0, 0⟩

/-- Where a word that is no member is declared. -/
def plainDefinition? (word : String) (line : Int) (resolver : Resolver) : Option Location :=
  (((a.visible? word line).or (a.topLevel? word line)).map a.locationOf).or
    (a.importedLocation? word resolver)

/-- Where the word at a position, or `word` in its place, is declared. -/
def definition (position : Position) (word : Option String) (resolver : Resolver) :
    Infer (Option Location) :=
  match a.queriedWord? position word with
  | none => pure none
  | some (word, start) =>
    match a.document.receiverAt? position.line start with
    | some receiver => do
      let type ← a.inferTokens receiver position.line
      let member ← Infer.ofExcept (a.memberOf? word type.alternatives)
      pure (member.map a.locationOf)
    | none => pure (a.plainDefinition? word position.line resolver)

end Polyloft.Analysis
