import Polyloft.Proofs.BlankLine.Declaration
import Polyloft.Proofs.Inference.Placed
import Polyloft.Proofs.Inference.Question

/-!
# Polyloft.Proofs.BlankLine.Expression

The types of expressions in a document with one more, empty line. An expression that moves has the
type that it had, in every monad, when every declaration that moves does: the type of the moved
expression by `f` is the type of the old one by `fun d => f (d.moved k)`. Names mean in the longer
document what they meant before (`Expression.sameAnswers_moved`), and nothing else matters.
-/

namespace Polyloft

/-- The second analysis is that of a document with one more, empty line before line `k`. -/
structure Analysis.Moved (k : Nat) (a a' : Analysis) : Prop where
  document : Document.Spaced k a.document a'.document
  tree : a.tree.Moved k a'.tree
  table : a'.table = a.table.moved k
  catalog : a'.catalog = a.catalog

theorem Analysis.Moved.visible? {k : Nat} {a a' : Analysis} (h : a.Moved k a') (name : String)
    (n : Nat) :
    a'.visible? name (movedLine k n : Nat) = (a.visible? name n).map (Declaration.moved k) := by
  rw [Analysis.visible?, Analysis.visible?, h.table]
  exact a.table.visible?_moved k h.tree name n

namespace Expression

/-! ### Names -/

section

variable {m : Type → Type} [Monad m] {k : Nat} {a a' : Analysis}
  (h : a.Moved k a') (f : Declaration → m Ty)
include h

theorem memberType?_moved (owner name : String) :
    memberType? a' f owner name = memberType? a (fun d => f (d.moved k)) owner name := by
  rw [memberType?, memberType?, h.table, DeclarationTable.memberSource?_moved]
  cases a.table.memberSource? owner name with
  | none => rfl
  | some source => cases source <;> rfl

theorem namedMethodType_moved (name : String) (args : List Ty) (method : String) :
    namedMethodType a' f name args method =
      namedMethodType a (fun d => f (d.moved k)) name args method := by
  rw [namedMethodType, namedMethodType, h.catalog, memberType?_moved h]

omit h

mutual

theorem methodType_moved (h : a.Moved k a') (method : String) (t : Ty) :
    methodType a' f method t = methodType a (fun d => f (d.moved k)) method t := by
  match t with
  | .any => rw [methodType, methodType]
  | .named name args =>
    rw [methodType, methodType]
    exact namedMethodType_moved h f name args method
  | .union members => rw [methodType, methodType, methodTypes_moved h method members]

theorem methodTypes_moved (h : a.Moved k a') (method : String) (ts : List Ty) :
    methodTypes a' f method ts = methodTypes a (fun d => f (d.moved k)) method ts := by
  match ts with
  | [] => rw [methodTypes, methodTypes]
  | t :: ts =>
    rw [methodTypes, methodTypes, methodType_moved h method t, methodTypes_moved h method ts]

end

include h

omit [Monad m] in
theorem thisType_moved (n : Nat) : thisType a' (movedLine k n : Nat) = thisType a n := by
  have howner := (h.tree.around n).findSome?
    (fun f => if f.kind == .classLike then f.name else none) fun _ _ => rfl
  rw [thisType, thisType, howner]

theorem callType_moved (name : String) (n : Nat) :
    callType a' f name (movedLine k n : Nat) = callType a (fun d => f (d.moved k)) name n := by
  have hlookup : ((a'.table.lookup? name).filter fun d => d.kind == .function) =
      ((a.table.lookup? name).filter fun d => d.kind == .function).map (Declaration.moved k) := by
    rw [h.table, DeclarationTable.lookup?_moved, Option.filter_map]
    rfl
  rw [callType, callType, h.visible?, hlookup, h.catalog, ← Option.map_or, Option.filter_map]
  dsimp only [Function.comp_def, Declaration.kind_moved]
  cases ((a.visible? name n).or _).filter fun d => d.kind == .function <;> rfl

theorem classAccess_moved (owner : Declaration) (member : String) :
    classAccess a' f (owner.moved k) member =
      classAccess a (fun d => f (d.moved k)) owner member := by
  rw [classAccess, classAccess, h.table, Declaration.form_moved, Declaration.name_moved,
    DeclarationTable.enumValues_moved, List.any_map, memberType?_moved h]
  rfl

theorem staticAccess_moved (name member : String) (n : Nat) :
    staticAccess a' f name member (movedLine k n : Nat) =
      staticAccess a (fun d => f (d.moved k)) name member n := by
  rw [staticAccess, staticAccess, h.catalog, h.table, DeclarationTable.classLike?_moved, h.visible?]
  cases a.catalog.package? name with
  | some p => cases a.table.classLike? name <;> simp
  | none =>
      cases a.table.classLike? name with
      | none => rfl
      | some owner => exact congrArg (Option.some <$> ·) (classAccess_moved h f owner member)

theorem nameType_moved (name : String) (n : Nat) :
    nameType a' f name (movedLine k n : Nat) = nameType a (fun d => f (d.moved k)) name n := by
  rw [nameType, nameType, h.visible?, h.table, DeclarationTable.classLike?_moved]
  cases a.visible? name n with
  | some d => rfl
  | none => cases a.table.classLike? name <;> rfl

/-- The surroundings of an expression that moves answer as they did. -/
theorem sameAnswers_moved (n : Nat) :
    SameAnswers a a' (fun d => f (d.moved k)) f n (movedLine k n : Nat) where
  methodType := methodType_moved f h
  thisType := thisType_moved h n
  callType name := callType_moved h f name n
  staticAccess name member := staticAccess_moved h f name member n
  nameType name := nameType_moved h f name n

/-! ### Expressions -/

omit h

variable [LawfulMonad m] [MonadLiftT (Except Fault) m]

theorem inferTokens_moved (h : a.Moved k a') (tokens : List Token) (n : Nat) :
    inferTokens a' f (tokens.map (Token.moved k)) (movedLine k n : Nat) =
      inferTokens a (fun d => f (d.moved k)) tokens n :=
  inferTokens_placed (sameAnswers_moved h f n) (Token.placeOnly_moved k) tokens

theorem inferText_moved (h : a.Moved k a') (text : List Char) (n : Nat) :
    inferText a' f text (movedLine k n : Nat) =
      inferText a (fun d => f (d.moved k)) text n := by
  rw [inferText, inferText, Int.toNat_natCast, Int.toNat_natCast, lexLine_moved,
    codeTokens_moved, inferTokens_moved f h]

end

end Expression

end Polyloft
