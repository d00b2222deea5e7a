import Polyloft.Proofs.BlankLine.Inference
import Polyloft.Proofs.Inference.Stable
import Polyloft.Rule.Typing

/-!
# Polyloft.Proofs.Inference.Returns

The return type of a function is the join of what its own `return`s return: of those in the whole
document whose innermost function is the function, in order, and of no others. Inference reads the
lines between the first and the last line of the body only, and decides by the scope tree which of
their `return`s count. Nothing is lost by that, because a frame reaches over every line that it
holds, also if it is never closed.

## Proof shape

`returnsWithin` lists the returns by a search through the whole document that knows nothing of line
ranges. That inference reads the same list is `ownReturns_eq`, from `IsRead.ownLines_eq`; the rest
is one unfolding of `returnTypeIn`.
-/

namespace Polyloft

open Infer Rule

/-! ### Lists -/

/-- Reading off some of the items, the others add nothing. -/
theorem flatMap_filter_eq {α β : Type} (p : α → Bool) (f : α → List β) (xs : List α) :
    (xs.filter p).flatMap f = xs.flatMap fun x => if p x then f x else [] := by
  induction xs with
  | nil => rfl
  | cons x xs ih =>
      rw [List.flatMap_cons, List.filter_cons, ← ih]
      cases p x <;> rfl

/-- Computations that return give one answer for each item, in order. -/
theorem Infer.exists_mapM_of_returns {α β : Type} {P : β → Prop} {f : α → Infer β} {items : List α}
    (h : ∀ x ∈ items, Returns P (f x)) {memo : Memo} (hmemo : memo.WellTyped) :
    ∃ answers memo', (items.mapM f).after memo = (.ok answers, memo') ∧
      answers.length = items.length := by
  induction items generalizing memo with
  | nil => exact ⟨[], memo, rfl, rfl⟩
  | cons x items ih =>
      rw [List.forall_mem_cons] at h
      obtain ⟨answer, memo₁, hafter, -, hmemo₁⟩ := h.1 memo hmemo
      obtain ⟨answers, memo', hrest, hlength⟩ := ih h.2 hmemo₁
      refine ⟨answer :: answers, memo', ?_, congrArg (· + 1) hlength⟩
      rw [List.mapM_cons, after_bind_ok hafter, after_bind_ok hrest, after_pure]

namespace Analysis

variable {a : Analysis} {body : Frame}

/-! ### The returns of a function -/

/-- Every `return` of the document whose innermost function has the given body: what is returned,
without what ends the statement, and the line. -/
def returnsWithin (a : Analysis) (body : Frame) : List (List Token × Nat) :=
  ((documentSpots a.document).filter fun p =>
    p.2.token.isKeyword "return" && decide (a.tree.functionAt? p.1 = some body)).map
      fun p => (trimStatement p.2.after, p.1)

/-- The type of what is returned, when only the declarations in `free` may be entered. -/
def typeOfReturn (a : Analysis) (free : List DeclarationKey) (r : List Token × Nat) : Infer Ty :=
  if r.1.isEmpty then pure .void else Expression.inferTokens a (a.declarationTypeIn free) r.1 r.2

theorem returnsOf_eq (before tokens : List Token) :
    returnsOf tokens = ((spotsAfter before tokens).filter fun s => s.token.isKeyword "return").map
      fun s => trimStatement s.after := by
  induction tokens generalizing before with
  | nil => rfl
  | cons t ts ih =>
      rw [returnsOf, spotsAfter, List.filter_cons, ih (t :: before)]
      cases t.isKeyword "return" <;> rfl

/-- What inference reads between the first and the last line of a function are its returns in the
whole document. -/
theorem ownReturns_eq (ha : a.IsRead) {i : Nat} (hbody : a.tree.frame? i = some body) :
    a.ownReturns body = .ok (a.returnsWithin body) := by
  have hline (line : Line) :
      (if a.isOwnLine body line then (returnsOf line.codeTokens).map (·, line.index) else []) =
        (((spots line.codeTokens).map (line.index, ·)).filter fun p =>
          p.2.token.isKeyword "return" && decide (a.tree.functionAt? p.1 = some body)).map
            fun p => (trimStatement p.2.after, p.1) := by
    rw [ha.isOwnLine_eq hbody, returnsOf_eq [], List.filter_map, List.map_map, List.map_map]
    by_cases hown : a.tree.functionAt? line.index = some body
    · simp [hown, Function.comp_def, spots]
    · simp [hown, Function.comp_def]
  rw [ownReturns, ha.ownLines_eq hbody, returnsWithin, documentSpots]
  refine congrArg Except.ok ?_
  rw [List.filter_flatMap, List.map_flatMap, flatMap_filter_eq]
  exact congrArg (a.document.lines.flatMap ·) (funext hline)

/-- The innermost function around a line. -/
theorem functionAt?_eq_some_iff (hkind : body.kind = .function) (line : Int) :
    a.tree.functionAt? line = some body ↔ ∃ inner outer,
      a.tree.around line = inner ++ body :: outer ∧ ∀ f ∈ inner, f.kind ≠ .function := by
  rw [ScopeTree.functionAt?, List.find?_eq_some_iff_append]
  simp [hkind]

/-- A function returns the join of what its own `return`s return: all those of the document whose
innermost function it is, in order, and no others. -/
theorem returnType_joins_own_returns (text : List Char) (uri : Option String) (catalog : Catalog)
    (d : Declaration) (body : Frame) (free : List DeclarationKey) (memo : Memo) :
    let a := Analysis.ofText text uri catalog
    a.functionBody? d = some body → d.key ∈ free → memo.WellTyped →
      memo.returned.lookup d.key = none →
        (∀ line : Int, a.tree.functionAt? line = some body ↔ ∃ inner outer,
          a.tree.around line = inner ++ body :: outer ∧ ∀ f ∈ inner, f.kind ≠ .function) ∧
        ∃ types memo',
          ((a.returnsWithin body).mapM (a.typeOfReturn (withoutKey free d.key))).after memo =
            (.ok types, memo') ∧
          types.length = (a.returnsWithin body).length ∧
          (a.returnTypeIn free d).after memo =
            (.ok (Ty.unify types), memo'.addReturned d.key (Ty.unify types)) := by
  intro a hbody hkey hmemo hlookup
  have ha : a.IsRead := isRead_ofText text uri catalog
  obtain ⟨i, hframe⟩ := exists_frame_of_functionBody? hbody
  have hkind : body.kind = .function := beq_iff_eq.1 (Option.filter_eq_some_iff.1 hbody).2
  refine ⟨functionAt?_eq_some_iff hkind, ?_⟩
  have htypes : ∀ r ∈ a.returnsWithin body,
      Returns Ty.WellFormed (a.typeOfReturn (withoutKey free d.key) r) := by
    intro r _
    rw [typeOfReturn]
    split
    · exact .pure (.simple _)
    · exact Expression.rel_inferTokens (R := Infer.returns)
        (g := a.declarationTypeIn (withoutKey free d.key))
        (fun _ he => returns_declarationTypeIn ha (withoutKey free d.key) he) r.1 r.2
  obtain ⟨types, memo', hafter, hlength⟩ := exists_mapM_of_returns htypes hmemo
  refine ⟨types, memo', hafter, hlength, ?_⟩
  refine after_returnTypeIn_of_entered hbody hlookup hkey (ownReturns_eq ha hframe) ?_
  exact after_bind_ok hafter _

/-- A function that is never closed, with a function and a `do` block inside. -/
def unclosedFunction : List Char :=
  ("def f():\ndef g():\nreturn 1\nend\nrun() do\nreturn 2\nend\nreturn f()\n" ++
    "if true:\nreturn;\n").toList

/-- The open function returns on the lines 7 and 9; the lines 2 and 5 belong to what it holds. -/
theorem returnType_joins_own_returns_unclosed :
    let a := Analysis.ofText unclosedFunction none {}
    ∃ d body, a.functionBody? d = some body ∧ d.key ∈ a.table.keys ∧
      (a.returnsWithin body).map Prod.snd = [7, 9] ∧
        ∃ types memo', types.length = 2 ∧
          (a.returnTypeIn a.table.keys d).after {} = (.ok (Ty.unify types), memo') := by
  intro a
  have hread : ((a.table.declarations.find? fun d => d.name == "f").bind fun d =>
      (a.functionBody? d).map fun body => (a.returnsWithin body).map Prod.snd) = some [7, 9] := by
    decide +kernel
  obtain ⟨d, hd, hbody⟩ := Option.bind_eq_some_iff.1 hread
  obtain ⟨body, hbody, hlines⟩ := Option.map_eq_some_iff.1 hbody
  have hkey : d.key ∈ a.table.keys := List.mem_map_of_mem (List.mem_of_find?_eq_some hd)
  obtain ⟨-, types, memo', -, hlength, hafter⟩ :=
    returnType_joins_own_returns unclosedFunction none {} d body a.table.keys {} hbody hkey
      Memo.wellTyped_empty rfl
  refine ⟨d, body, hbody, hkey, hlines, types, _, ?_, hafter⟩
  rw [hlength, ← List.length_map, hlines]
  rfl

end Analysis

end Polyloft
