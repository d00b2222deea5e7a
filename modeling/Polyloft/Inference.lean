import Polyloft.Inference.Expression
import Polyloft.Inference.Memo

/-!
# Polyloft.Inference

The types of declarations. A declaration without a written type has the type of its initializer, a
function the join of the types it returns; only a `return` whose innermost function is the function
itself counts. Declarations may refer to each other in circles. While the type of one is being
found it is not entered again, and what refers back to it sees `Any`.

Which declarations may be entered is the argument `free`: it starts as all of them and loses the
one that is entered, which is why inference ends.
-/

namespace Polyloft

/-- What identifies the declarations of a table. -/
def DeclarationTable.keys (table : DeclarationTable) : List DeclarationKey :=
  table.declarations.map Declaration.key

/-- The declarations that may be entered once `key` has been. -/
def withoutKey (free : List DeclarationKey) (key : DeclarationKey) : List DeclarationKey :=
  free.filter (· ≠ key)

theorem length_withoutKey_lt {free : List DeclarationKey} {key : DeclarationKey}
    (h : key ∈ free) : (withoutKey free key).length < free.length :=
  List.length_filter_lt_length_iff_exists.2 ⟨key, h, by simp⟩

namespace Analysis

variable (a : Analysis)

/-! ### Returned expressions -/

/-- The returned expression of each `return` of a line, without what ends the statement. -/
def returnsOf : List Token → List (List Token)
  | [] => []
  | t :: ts => if t.isKeyword "return" then trimStatement ts :: returnsOf ts else returnsOf ts

/-- The lines of a function's body that hold its own statements: those whose innermost function is
the function itself. -/
def ownLines (body : Frame) : Except Fault (List Line) := do
  let lines ← a.document.linesBetween body.start (body.stop.getD (a.document.size - 1))
  pure (lines.filter fun line => (a.tree.functionAt? line.index).any (·.id == body.id))

/-- The expressions a function returns itself, with the line of each. -/
def ownReturns (body : Frame) : Except Fault (List (List Token × Nat)) := do
  let lines ← a.ownLines body
  pure (lines.flatMap fun line => (returnsOf line.codeTokens).map (·, line.index))

/-- The body of a function that is declared with one. -/
def functionBody? (d : Declaration) : Option Frame :=
  (d.body.bind a.tree.frame?).filter fun f => f.kind == .function

/-! ### One declaration -/

section

variable {m : Type → Type} [Monad m]

/-- The join of the types of some returned expressions. -/
def returnedType [MonadLiftT (Except Fault) m] (typeOf : Declaration → m Ty)
    (returns : List (List Token × Nat)) : m Ty := do
  let types ← returns.mapM fun r =>
    if r.1.isEmpty then pure Ty.void else Expression.inferTokens a typeOf r.1 r.2
  pure (Ty.unify types)

/-- The type of a variable that was declared without one. -/
def initialType [MonadLiftT (Except Fault) m] (typeOf : Declaration → m Ty) (d : Declaration) :
    m Ty :=
  match d.form, d.owner, d.initializer with
  | .enumValue, some owner, _ => pure (.simple owner)
  | .loopVariable, _, some text =>
    Ty.iteration <$> Expression.inferText a typeOf text.toList d.line
  | .loopVariable, _, none => pure .any
  | _, _, some text =>
    if text == "" then pure .any else Expression.inferText a typeOf text.toList d.line
  | _, _, none => pure .any

/-- The type of a call of a function: what is written, or else what its body returns. -/
def functionTypeBy (returnType : Declaration → m Ty) (d : Declaration) : m Ty :=
  match d.form, d.returnText with
  | .constructor, _ => pure (.simple d.name)
  | form, some text =>
    if text != "" then pure (Ty.ofString text)
    else if form == .signature then pure .any
    else returnType d
  | .signature, none => pure .any
  | _, none => returnType d

/-- The type of a declaration: the written one, or else the one that is inferred. -/
def declarationTypeBy (returnType variableType : Declaration → m Ty) (d : Declaration) : m Ty :=
  match d.declaredType, d.kind with
  | some t, _ => pure t
  | none, .classLike => pure (.simple d.name)
  | none, .function => functionTypeBy returnType d
  | none, .variable => variableType d

end

/-! ### All declarations -/

mutual

/-- The return type of a declaration that has a body, from what it returns. -/
def returnTypeIn (free : List DeclarationKey) (d : Declaration) : Infer Ty :=
  match a.functionBody? d with
  | none => pure .any
  | some body => do
    match (← Infer.memo).returned.lookup d.key with
    | some t => pure t
    | none =>
      if h : d.key ∈ free then do
        have := length_withoutKey_lt h
        let returns ← Infer.ofExcept (a.ownReturns body)
        let t ← a.returnedType (fun e => declarationTypeIn (withoutKey free d.key) e) returns
        Infer.remember (·.addReturned d.key t)
        pure t
      else pure .any
termination_by 2 * free.length

/-- The type of a variable that was declared without one. -/
def variableTypeIn (free : List DeclarationKey) (d : Declaration) : Infer Ty := do
  match (← Infer.memo).declared.lookup d.key with
  | some t => pure t
  | none =>
    if h : d.key ∈ free then do
      have := length_withoutKey_lt h
      let t ← a.initialType (fun e => declarationTypeIn (withoutKey free d.key) e) d
      Infer.remember (·.addDeclared d.key t)
      pure t
    else pure .any
termination_by 2 * free.length

/-- The type of a declaration when only the declarations in `free` may be entered. -/
def declarationTypeIn (free : List DeclarationKey) (d : Declaration) : Infer Ty :=
  declarationTypeBy (fun e => returnTypeIn free e) (fun e => variableTypeIn free e) d
termination_by 2 * free.length + 1

end

/-! ### Questions -/

/-- The type of a declaration. -/
def declarationType (d : Declaration) : Infer Ty :=
  a.declarationTypeIn a.table.keys d

/-- The type of a call of a function. -/
def functionType (d : Declaration) : Infer Ty :=
  functionTypeBy (a.returnTypeIn a.table.keys) d

/-- The return type of a declaration from what its body returns. -/
def returnType (d : Declaration) : Infer Ty :=
  a.returnTypeIn a.table.keys d

/-- The type of a sequence of code tokens as seen from a line. -/
def inferTokens (tokens : List Token) (line : Int) : Infer Ty :=
  Expression.inferTokens a a.declarationType tokens line

/-- The type of an expression as seen from a line. -/
def infer (text : List Char) (line : Int) : Infer Ty :=
  Expression.inferText a a.declarationType text line

/-- The type of the variable that a name means on a line. -/
def variableType (name : String) (line : Int) : Infer Ty :=
  match a.visible? name line with
  | some d => a.declarationType d
  | none => pure .any

/-- The type of `receiver.method(...)` or `receiver.method`. -/
def methodType (receiver : Ty) (method : String) : Infer Ty :=
  Expression.methodType a a.declarationType method receiver

/-- The type of a member of a class-like, parents included. -/
def memberType? (owner name : String) : Infer (Option Ty) :=
  Expression.memberType? a a.declarationType owner name

/-- The type of `this` on a line. -/
def thisType (line : Int) : Ty :=
  Expression.thisType a line

end Analysis

end Polyloft
