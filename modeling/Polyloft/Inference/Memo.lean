import Polyloft.Declaration
import Polyloft.Fault

/-!
# Polyloft.Inference.Memo

What inference remembers, and the computations that may remember something. A computation takes the
memo of what was found before; it gives an answer or a fault, and either way the memo that it
leaves.
-/

namespace Polyloft

/-- What inference remembers: types of variables and return types of functions. -/
structure Memo where
  declared : List (DeclarationKey × Ty) := []
  returned : List (DeclarationKey × Ty) := []

namespace Memo

/-- Keeps the type of a variable. -/
def addDeclared (memo : Memo) (key : DeclarationKey) (t : Ty) : Memo :=
  { memo with declared := (key, t) :: memo.declared }

/-- Keeps the return type of a function. -/
def addReturned (memo : Memo) (key : DeclarationKey) (t : Ty) : Memo :=
  { memo with returned := (key, t) :: memo.returned }

end Memo

/-- A computation that may remember types. -/
abbrev Infer := ExceptT Fault (StateM Memo)

namespace Infer

variable {α : Type}

/-- The answer of a computation on a memo, and the memo that it leaves. -/
def after (x : Infer α) (memo : Memo) : Except Fault α × Memo :=
  (ExceptT.run x).run memo

/-- The answer of a computation when nothing is remembered yet. -/
def answer (x : Infer α) : Except Fault α :=
  (x.after {}).1

/-- A computation that remembers nothing. -/
def ofExcept (x : Except Fault α) : Infer α :=
  ExceptT.mk (pure x)

/-- What is remembered. -/
def memo : Infer Memo :=
  ExceptT.mk fun memo => (.ok memo, memo)

/-- Remembers something. -/
def remember (f : Memo → Memo) : Infer Unit :=
  ExceptT.mk fun memo => (.ok (), f memo)

end Infer

end Polyloft
