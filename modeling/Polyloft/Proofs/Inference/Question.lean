import Polyloft.Proofs.Inference.Total

/-!
# Polyloft.Proofs.Inference.Question

The questions that inference answers, as data. A question can be asked in any monad in which the
types of declarations are found (`Question.answerBy`); asking it of inference itself
(`Question.ask`) is one case, and what is said about all questions is said about `answerBy` once
(`rel_answerBy`). Questions are asked one after the other, each on the memo that the ones before it
left (`memoAfter`).
-/

namespace Polyloft

/-- Related computations stay related when nothing is said about their answers. -/
theorem MonadRel.mapAny {m n : Type → Type} [Monad m] [LawfulMonad m] [Monad n] [LawfulMonad n]
    (R : MonadRel m n) {α β : Type} {P : α → Prop} {x : m α} {y : n α} (h : R.rel P x y)
    (f : α → β) : R.rel (fun _ => True) (f <$> x) (f <$> y) :=
  R.map h fun _ _ => trivial

/-! ### Receivers of any type -/

namespace Expression

section

variable {m n : Type → Type} [Monad m] [LawfulMonad m] [Monad n] [LawfulMonad n]
  {R : MonadRel m n} {a : Analysis} {f : Declaration → m Ty} {g : Declaration → n Ty}

theorem rel_namedMethodType_anyway
    (h : ∀ d ∈ a.table.declarations, R.rel Ty.WellFormed (f d) (g d))
    (name : String) (args : List Ty) (method : String) :
    R.rel (fun _ => True) (namedMethodType a f name args method)
      (namedMethodType a g name args method) := by
  unfold namedMethodType
  split
  · exact R.pure trivial
  · refine R.bind (rel_memberType? h name method) ?_
    intro found _
    cases found with
    | some t => exact R.pure trivial
    | none => exact R.pure trivial

/-- A method may be asked for on any type, also on one that no text can write. -/
theorem rel_methodType_anyway
    (h : ∀ d ∈ a.table.declarations, R.rel Ty.WellFormed (f d) (g d)) (method : String) :
    (t : Ty) → R.rel (fun _ => True) (methodType a f method t) (methodType a g method t)
  | .any => by
      rw [methodType, methodType]
      exact R.pure trivial
  | .named name args => by
      rw [methodType, methodType]
      exact rel_namedMethodType_anyway h name args method
  | .union members => by
      rw [methodType, methodType]
      refine R.mapAny (rel_methodTypes (Q := fun _ => True) method ?_) Ty.unify
      intro t ht
      have := List.sizeOf_lt_of_mem ht
      exact rel_methodType_anyway h method t
termination_by t => sizeOf t
decreasing_by
  simp only [Ty.union.sizeOf_spec]
  omega

end

end Expression

/-! ### Questions -/

/-- A question about a document. The declarations that are asked about are its own. -/
inductive Question (a : Analysis) where
  /-- The type of an expression as seen from a line. -/
  | expression (text : List Char) (line : Int)
  /-- The type of a sequence of code tokens as seen from a line. -/
  | code (tokens : List Token) (line : Int)
  /-- The return type of a declaration, from what its body returns. -/
  | returned (d : { d // d ∈ a.table.declarations })
  /-- The type of a call. -/
  | called (d : { d // d ∈ a.table.declarations })
  /-- The type of a declaration. -/
  | declared (d : { d // d ∈ a.table.declarations })
  /-- The type of the variable that a name means on a line. -/
  | named (name : String) (line : Int)
  /-- The type of a method of a receiver. -/
  | method (receiver : Ty) (name : String)
  /-- The type of a member of a class-like, if it has it. -/
  | member (owner name : String)

namespace Question

variable {a : Analysis}

/-- Asks a question of inference. -/
def ask : Question a → Infer (Option Ty)
  | .expression text line => some <$> a.infer text line
  | .code tokens line => some <$> a.inferTokens tokens line
  | .returned d => some <$> a.returnType d
  | .called d => some <$> a.functionType d
  | .declared d => some <$> a.declarationType d
  | .named name line => some <$> a.variableType name line
  | .method receiver name => some <$> a.methodType receiver name
  | .member owner name => a.memberType? owner name

/-- The answer to a question, given how return types and types of declarations are found. -/
def answerBy {m : Type → Type} [Monad m] [MonadLiftT (Except Fault) m]
    (returnType typeOf : Declaration → m Ty) : Question a → m (Option Ty)
  | .expression text line => some <$> Expression.inferText a typeOf text line
  | .code tokens line => some <$> Expression.inferTokens a typeOf tokens line
  | .returned d => some <$> returnType d
  | .called d => some <$> Analysis.functionTypeBy returnType d
  | .declared d => some <$> typeOf d
  | .named name line =>
    some <$> match a.visible? name line with
      | some d => typeOf d
      | none => pure .any
  | .method receiver name => some <$> Expression.methodType a typeOf name receiver
  | .member owner name => Expression.memberType? a typeOf owner name

/-- Asks a question of inference when only the declarations in `free` may be entered. -/
def askIn (free : List DeclarationKey) (q : Question a) : Infer (Option Ty) :=
  q.answerBy (a.returnTypeIn free) (a.declarationTypeIn free)

theorem ask_eq_askIn (q : Question a) : q.ask = q.askIn a.table.keys := by
  cases q <;> rfl

/-- Related ways of finding the types of declarations give related answers. -/
theorem rel_answerBy {m n : Type → Type} [Monad m] [LawfulMonad m] [MonadLiftT (Except Fault) m]
    [Monad n] [LawfulMonad n] [MonadLiftT (Except Fault) n]
    {R : MonadRel m n} {f v : Declaration → m Ty} {g w : Declaration → n Ty}
    (hreturn : ∀ d ∈ a.table.declarations, R.rel Ty.WellFormed (f d) (g d))
    (htype : ∀ d ∈ a.table.declarations, R.rel Ty.WellFormed (v d) (w d)) (q : Question a) :
    R.rel (fun _ => True) (q.answerBy f v) (q.answerBy g w) := by
  cases q with
  | expression text line => exact R.mapAny (Expression.rel_inferText htype text line) some
  | code tokens line => exact R.mapAny (Expression.rel_inferTokens htype tokens line) some
  | returned d => exact R.mapAny (hreturn d d.2) some
  | called d => exact R.mapAny (Analysis.rel_functionTypeBy (hreturn d d.2)) some
  | declared d => exact R.mapAny (htype d d.2) some
  | named name line =>
      rw [answerBy, answerBy]
      refine R.mapAny (P := Ty.WellFormed) ?_ some
      split
      · rename_i d hd
        exact htype d (DeclarationTable.mem_of_visible? hd)
      · exact R.pure .any
  | method receiver name =>
      exact R.mapAny (Expression.rel_methodType_anyway htype name receiver) some
  | member owner name =>
      have h := R.mapAny (Expression.rel_memberType? htype owner name) id
      rwa [id_map, id_map] at h

/-! ### Sequences of questions -/

/-- The memo that some questions leave, asked one after the other. -/
def memoAfter (questions : List (Question a)) (memo : Memo) : Memo :=
  questions.foldl (fun memo q => (q.ask.after memo).2) memo

@[simp] theorem memoAfter_cons (q : Question a) (questions : List (Question a)) (memo : Memo) :
    memoAfter (q :: questions) memo = memoAfter questions (q.ask.after memo).2 := rfl

theorem memoAfter_append (before after : List (Question a)) (memo : Memo) :
    memoAfter (before ++ after) memo = memoAfter after (memoAfter before memo) :=
  List.foldl_append

/-- What every question keeps, a sequence of questions keeps. -/
theorem memoAfter_induction {motive : Memo → Prop}
    (step : ∀ (q : Question a) memo, motive memo → motive (q.ask.after memo).2)
    (questions : List (Question a)) {memo : Memo} (h : motive memo) :
    motive (memoAfter questions memo) := by
  induction questions generalizing memo with
  | nil => exact h
  | cons q questions ih => exact ih (step q memo h)

/-- The answer to a question that is asked behind some others. -/
def answerAfter (before : List (Question a)) (q : Question a) : Except Fault (Option Ty) :=
  (q.ask.after (memoAfter before {})).1

end Question

end Polyloft
