import Polyloft.Proofs.BlankLine.Rule

/-!
# Polyloft.Proofs.BlankLine.Typing

The rules that infer types, on a document with one more, empty line: they ask the same questions in
the same order, and an empty line asks none.
-/

namespace Polyloft

open Infer

namespace Rule

variable {k : Nat}

/-! ### Checks one after the other -/

/-- The finding of a check, moved. -/
def MovedFinding (k : Nat) (found found' : Option Finding) : Prop :=
  found' = found.map (Finding.moved k)

/-- The findings of a rule, moved. -/
def MovedFindings (k : Nat) (findings findings' : List Finding) : Prop :=
  findings' = findings.map (Finding.moved k)

theorem collectFindings_cons {α : Type} (check : α → Infer (Option Finding)) (x : α)
    (xs : List α) :
    collectFindings check (x :: xs) = (do
      let found ← check x
      let findings ← collectFindings check xs
      pure (found.toList ++ findings)) := by
  simp only [collectFindings, List.mapM_cons, bind_assoc, pure_bind]
  congr 1
  funext found
  congr 1
  funext rest
  cases found <;> rfl

theorem renumbers_collectFindings_cons {α β : Type} {check : α → Infer (Option Finding)}
    {check' : β → Infer (Option Finding)} {x : α} {y : β} {xs : List α} {ys : List β}
    (hhead : Renumbers k (MovedFinding k) (check x) (check' y))
    (htail : Renumbers k (MovedFindings k) (collectFindings check xs) (collectFindings check' ys)) :
    Renumbers k (MovedFindings k) (collectFindings check (x :: xs))
      (collectFindings check' (y :: ys)) := by
  rw [collectFindings_cons, collectFindings_cons]
  refine .bind hhead ?_
  rintro found _ rfl
  refine .bind htail ?_
  rintro findings _ rfl
  refine .pure ?_
  rw [MovedFindings, List.map_append]
  cases found <;> rfl

/-- Checks of items that move. -/
theorem renumbers_collectFindings_map {α β : Type} {check : α → Infer (Option Finding)}
    {check' : β → Infer (Option Finding)} {move : α → β} (items : List α)
    (h : ∀ x ∈ items, Renumbers k (MovedFinding k) (check x) (check' (move x))) :
    Renumbers k (MovedFindings k) (collectFindings check items)
      (collectFindings check' (items.map move)) := by
  induction items with
  | nil => exact .pure rfl
  | cons x xs ih =>
      exact renumbers_collectFindings_cons (h x (List.mem_cons_self ..))
        (ih fun y hy => h y (List.mem_cons_of_mem _ hy))

/-- Checks of lines, where the empty line has nothing to check. -/
theorem renumbers_collectFindings_spread {check check' : Line → Infer (Option Finding)}
    {ls ls' : List Line} (hls : Spread k ls ls')
    (hline : ∀ l, Renumbers k (MovedFinding k) (check l) (check' (l.moved k)))
    (hempty : ∀ n, check' (Line.empty n) = pure none) :
    Renumbers k (MovedFindings k) (collectFindings check ls) (collectFindings check' ls') := by
  induction hls with
  | nil => exact .pure rfl
  | line l _ ih => exact renumbers_collectFindings_cons (hline l) ih
  | empty n _ ih =>
      rw [collectFindings_cons, hempty, pure_bind]
      simpa using ih

/-! ### Checks -/

section

variable {a a' : Analysis} (h : a.Moved k a') (ha : a.IsRead) (ha' : a'.IsRead)
include h ha ha'

theorem renumbers_initializerMismatch (d : Declaration) :
    Renumbers k (MovedFinding k) (initializerMismatch a d)
      (initializerMismatch a' (d.moved k)) := by
  unfold initializerMismatch
  rw [Declaration.form_moved, Declaration.declaredType_moved, Declaration.initializer_moved,
    Declaration.name_moved, Declaration.range_moved]
  split
  · split
    · exact .pure rfl
    · refine .bind (Analysis.renumbers_infer h ha ha' _ d.line) ?_
      rintro source _ ⟨rfl, -⟩
      split
      · exact .pure rfl
      · exact .pure rfl
  · exact .pure rfl

omit ha ha' in
theorem assignedVariable?_moved (line : Line) :
    assignedVariable? a' (line.moved k) = (assignedVariable? a line).map fun s =>
      (s.1.moved k, s.2.1.moved k, s.2.2.map (Token.moved k)) := by
  rw [assignedVariable?, assignedVariable?, Line.codeTokens_moved, assignment?_moved,
    Line.index_moved]
  cases assignment? line.codeTokens with
  | none => rfl
  | some s =>
      dsimp only [Option.map_some, Option.bind_some]
      rw [Token.text_moved, Token.text_moved, List.isEmpty_map, h.visible?, Option.filter_map]
      split
      · rw [Option.map_map, Option.map_map]
        rfl
      · rfl

theorem renumbers_assignmentMismatch (line : Line) :
    Renumbers k (MovedFinding k) (assignmentMismatch a line)
      (assignmentMismatch a' (line.moved k)) := by
  rw [assignmentMismatch, assignmentMismatch, assignedVariable?_moved h]
  cases hassigned : assignedVariable? a line with
  | none => exact .pure rfl
  | some s =>
      dsimp only [Option.map_some]
      have hd := mem_of_assignedVariable? hassigned
      refine .bind (Analysis.renumbers_declarationType h ha ha' hd) ?_
      rintro target _ ⟨rfl, -⟩
      split
      · exact .pure rfl
      · refine .bind (Analysis.renumbers_inferTokens h ha ha' s.2.2 line.index) ?_
        rintro source _ ⟨rfl, -⟩
        rw [Token.range_moved, Token.text_moved]
        split
        · exact .pure rfl
        · exact .pure rfl

theorem renumbers_comparisonMismatch (n : Nat) (s : Spot) :
    Renumbers k (MovedFinding k) (comparisonMismatch a n s)
      (comparisonMismatch a' (movedLine k n) (s.moved k)) := by
  rw [comparisonMismatch, comparisonMismatch, comparedNames?_moved]
  cases comparedNames? s with
  | none => exact .pure rfl
  | some p =>
      dsimp only [Option.map_some]
      rw [Token.text_moved, Token.text_moved, h.visible?, h.visible?, Option.filter_map,
        Option.filter_map]
      have hvariable : Declaration.isVariable ∘ Declaration.moved k = Declaration.isVariable := rfl
      rw [hvariable]
      cases hl : (a.visible? p.1.text n).filter Declaration.isVariable with
      | none => exact .pure rfl
      | some l =>
          cases hr : (a.visible? p.2.text n).filter Declaration.isVariable with
          | none => exact .pure rfl
          | some r =>
              have hl := DeclarationTable.mem_of_visible? (Option.filter_eq_some_iff.1 hl).1
              have hr := DeclarationTable.mem_of_visible? (Option.filter_eq_some_iff.1 hr).1
              dsimp only [Option.map_some]
              refine .bind (Analysis.renumbers_declarationType h ha ha' hl) ?_
              rintro lt _ ⟨rfl, -⟩
              refine .bind (Analysis.renumbers_declarationType h ha ha' hr) ?_
              rintro rt _ ⟨rfl, -⟩
              split
              · exact .pure rfl
              · exact .pure (congrArg (fun r => some (Finding.mk r _))
                  (Range.moved_mk k _ _ _).symm)

omit ha ha' in
theorem unknownPackageMember?_moved (receiver member : Token) :
    unknownPackageMember? a' (receiver.moved k) (member.moved k) =
      (unknownPackageMember? a receiver member).map (Finding.moved k) := by
  have hclass : (a'.table.classLike? receiver.text).isNone =
      (a.table.classLike? receiver.text).isNone := by
    rw [h.table, DeclarationTable.classLike?_moved, Option.isNone_map]
  rw [unknownPackageMember?, unknownPackageMember?, Token.text_moved, Token.text_moved, hclass,
    h.catalog, Token.range_moved]
  split <;> rfl

omit ha ha' in
theorem unknownMethod?_moved (t : Ty) (member : Token) :
    unknownMethod? a' t (member.moved k) = (unknownMethod? a t member).map (Finding.moved k) := by
  unfold unknownMethod?
  rw [h.catalog, Token.text_moved, Token.range_moved]
  split
  · split <;> rfl
  · rfl

theorem renumbers_unknownMemberAt (n : Nat) (s : Spot) :
    Renumbers k (MovedFinding k) (unknownMemberAt a n s)
      (unknownMemberAt a' (movedLine k n) (s.moved k)) := by
  have hcall : (s.afterNext?.map (Token.moved k)).any (·.isSymbol "(") =
      s.afterNext?.any (·.isSymbol "(") := by
    rw [Option.any_map]
    rfl
  rw [unknownMemberAt, unknownMemberAt, accessedMember?_moved, Spot.afterNext?_moved, hcall]
  cases accessedMember? s with
  | none => exact .pure rfl
  | some p =>
      dsimp only [Option.map_some]
      rw [Token.text_moved, h.visible?, h.catalog, unknownPackageMember?_moved h]
      cases hd : a.visible? p.1.text n with
      | none =>
          dsimp only [Option.map_none]
          split
          · exact .pure rfl
          · exact .pure rfl
      | some d =>
          dsimp only [Option.map_some]
          rw [Declaration.isVariable_moved]
          split
          · refine .bind (Analysis.renumbers_declarationType h ha ha'
              (DeclarationTable.mem_of_visible? hd)) ?_
            rintro _ t ⟨rfl, -⟩
            exact .pure (unknownMethod?_moved h t p.2)
          · exact .pure rfl

end

end Rule

end Polyloft
