import Polyloft.Proofs.Inference.Relation
import Polyloft.Rule.Typing

/-!
# Polyloft.Proofs.Rule.Typing

The rules that infer types ask for the types of declarations and of expressions, one after the
other, and do nothing else with the memo. Whatever a relation between computations says about the
types of declarations it therefore says about these rules.
-/

namespace Polyloft.Rule

theorem mem_of_assignedVariable? {a : Analysis} {line : Line} {d : Declaration} {name : Token}
    {value : List Token} (hassigned : assignedVariable? a line = some (d, name, value)) :
    d ∈ a.table.declarations := by
  obtain ⟨⟨name', op, value'⟩, -, hassigned⟩ := Option.bind_eq_some_iff.1 hassigned
  dsimp only at hassigned
  split at hassigned
  · obtain ⟨d', hd', heq⟩ := Option.map_eq_some_iff.1 hassigned
    obtain ⟨rfl, -⟩ := Prod.mk.inj heq
    exact DeclarationTable.mem_of_visible? (Option.filter_eq_some_iff.1 hd').1
  · simp at hassigned

section

variable {R : MonadRel Infer Infer} {a : Analysis}
  (h : ∀ d ∈ a.table.declarations,
    R.rel Ty.WellFormed (a.declarationType d) (a.declarationType d))
include h

theorem rel_initializerMismatch (d : Declaration) :
    R.rel (fun _ => True) (initializerMismatch a d) (initializerMismatch a d) := by
  unfold initializerMismatch
  split
  · split
    · exact R.pure trivial
    · refine R.bind (Expression.rel_inferText h _ _) ?_
      intro source _
      split
      · exact R.pure trivial
      · exact R.pure trivial
  · exact R.pure trivial

theorem rel_assignmentMismatch (line : Line) :
    R.rel (fun _ => True) (assignmentMismatch a line) (assignmentMismatch a line) := by
  unfold assignmentMismatch
  split
  · exact R.pure trivial
  · rename_i d name value hassigned
    refine R.bind (h d (mem_of_assignedVariable? hassigned)) ?_
    intro target _
    split
    · exact R.pure trivial
    · refine R.bind (Expression.rel_inferTokens h _ _) ?_
      intro source _
      split
      · exact R.pure trivial
      · exact R.pure trivial

theorem rel_comparisonMismatch (line : Nat) (s : Spot) :
    R.rel (fun _ => True) (comparisonMismatch a line s) (comparisonMismatch a line s) := by
  unfold comparisonMismatch
  split
  · exact R.pure trivial
  · split
    · rename_i l r hl hr
      have hl := DeclarationTable.mem_of_visible? (Option.filter_eq_some_iff.1 hl).1
      have hr := DeclarationTable.mem_of_visible? (Option.filter_eq_some_iff.1 hr).1
      refine R.bind (h l hl) ?_
      intro lt _
      refine R.bind (h r hr) ?_
      intro rt _
      split
      · exact R.pure trivial
      · exact R.pure trivial
    · exact R.pure trivial

theorem rel_unknownMemberAt (line : Nat) (s : Spot) :
    R.rel (fun _ => True) (unknownMemberAt a line s) (unknownMemberAt a line s) := by
  unfold unknownMemberAt
  split
  · exact R.pure trivial
  · split
    · split
      · exact R.pure trivial
      · exact R.pure trivial
    · rename_i d hd
      split
      · refine R.bind (h d (DeclarationTable.mem_of_visible? hd)) ?_
        intro t _
        exact R.pure trivial
      · exact R.pure trivial

end

theorem rel_collectFindings {R : MonadRel Infer Infer} {α : Type}
    {check : α → Infer (Option Finding)}
    (h : ∀ x, R.rel (fun _ => True) (check x) (check x)) (items : List α) :
    R.rel (fun _ => True) (collectFindings check items) (collectFindings check items) := by
  unfold collectFindings
  refine R.bind (R.mapM fun x _ => h x) ?_
  intro found _
  exact R.pure trivial

section

variable {R : MonadRel Infer Infer} {ctx : RuleContext}
  (h : ∀ d ∈ ctx.analysis.table.declarations,
    R.rel Ty.WellFormed (ctx.analysis.declarationType d) (ctx.analysis.declarationType d))
include h

theorem rel_assignmentTypeMismatch :
    R.rel (fun _ => True) (assignmentTypeMismatch.check ctx)
      (assignmentTypeMismatch.check ctx) := by
  refine R.bind (rel_collectFindings (rel_initializerMismatch h) _) ?_
  intro declared _
  refine R.bind (rel_collectFindings (rel_assignmentMismatch h) _) ?_
  intro assigned _
  exact R.pure trivial

theorem rel_incompatibleComparison :
    R.rel (fun _ => True) (incompatibleComparison.check ctx)
      (incompatibleComparison.check ctx) := by
  refine rel_collectFindings ?_ _
  rintro ⟨line, s⟩
  exact rel_comparisonMismatch h line s

theorem rel_unknownMember :
    R.rel (fun _ => True) (unknownMember.check ctx) (unknownMember.check ctx) := by
  refine rel_collectFindings ?_ _
  rintro ⟨line, s⟩
  exact rel_unknownMemberAt h line s

end

end Polyloft.Rule
