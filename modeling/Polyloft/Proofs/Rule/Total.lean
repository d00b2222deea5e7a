import Polyloft.Proofs.Inference.Total
import Polyloft.Proofs.Rule.Typing
import Polyloft.Rule.Report

/-!
# Polyloft.Proofs.Rule.Total

No rule fails. Most rules compute findings from what is there; four read lines by number, divide by
the width of an indentation step or read a token as a number, and the places they look at exist; the
others ask for types, and types are always found.
-/

namespace Polyloft

open Infer

namespace Rule

/-! ### Rules that read lines and numbers -/

section

variable {ctx : RuleContext} (ha : ctx.analysis.IsRead)
include ha

theorem returns_missingEnd : Returns (fun _ => True) (missingEnd.check ctx) := by
  refine .ofExcept ?_
  have hlines : ∃ findings : List Finding,
      (ctx.analysis.tree.unclosed.filterMap ctx.analysis.tree.frame?).mapM (fun f => do
        let line ← ctx.analysis.document.lineAt f.start
        return (⟨line.codeRange,
          "Block statement may be missing corresponding \"end\" keyword"⟩ : Finding)) =
        Except.ok findings := by
    refine exists_mapM_eq_ok ?_
    intro f hf
    obtain ⟨i, -, hf⟩ := List.mem_filterMap.1 hf
    obtain ⟨line, hline⟩ := Document.exists_lineAt_eq_ok (ha.stop_lt hf).1
    rw [hline]
    exact ⟨_, rfl⟩
  obtain ⟨findings, hfindings⟩ := hlines
  exact ⟨findings, hfindings, trivial⟩

theorem returns_strayEnd : Returns (fun _ => True) (strayEnd.check ctx) := by
  refine .ofExcept ?_
  have hlines : ∃ findings : List Finding,
      ctx.analysis.tree.stray.mapM (fun index => do
        let line ← ctx.analysis.document.lineAt index
        return (⟨line.codeRange, "\"end\" does not close any open block"⟩ : Finding)) =
        Except.ok findings := by
    refine exists_mapM_eq_ok ?_
    intro index hindex
    obtain ⟨line, hline⟩ := Document.exists_lineAt_eq_ok (ha.stray_lt hindex)
    rw [hline]
    exact ⟨_, rfl⟩
  obtain ⟨findings, hfindings⟩ := hlines
  exact ⟨findings, hfindings, trivial⟩

omit ha in
theorem exists_misindented_eq_ok {width : Int} (hwidth : 0 < width) (depth : Int)
    (lines : List Line) : ∃ findings, misindented width depth lines = .ok findings := by
  induction lines generalizing depth with
  | nil => exact ⟨[], rfl⟩
  | cons line later ih =>
      obtain ⟨findings, hfindings⟩ := ih (depth + bracketBalance line.codeTokens)
      rw [misindented]
      split
      · rw [if_neg (by omega)]
        split
        · rw [hfindings]
          exact ⟨_, rfl⟩
        · exact ⟨findings, hfindings⟩
      · exact ⟨findings, hfindings⟩

omit ha in
theorem returns_indentation (hwidth : 0 < ctx.settings.indentWidth) :
    Returns (fun _ => True) (indentation.check ctx) := by
  refine .ofExcept ?_
  obtain ⟨findings, hfindings⟩ :=
    exists_misindented_eq_ok hwidth 0 ctx.analysis.document.lines
  exact ⟨findings, hfindings, trivial⟩

omit ha in
/-- The neighbours of a token stand on its line. -/
theorem mem_of_mem_after {before tokens : List Token} {s : Spot} (hs : s ∈ spotsAfter before tokens)
    {t : Token} (ht : t ∈ s.after) : t ∈ tokens := by
  induction tokens generalizing before with
  | nil => simp [spotsAfter] at hs
  | cons u tokens ih =>
      rcases List.mem_cons.1 hs with rfl | hs
      · exact List.mem_cons_of_mem _ ht
      · exact List.mem_cons_of_mem _ (ih hs)

omit ha in
theorem exists_zeroDivision?_eq_ok {s : Spot} (h : ∀ t ∈ s.after, t.IsNumeric) :
    ∃ found, zeroDivision? s = .ok found := by
  unfold zeroDivision?
  split
  · exact ⟨none, rfl⟩
  · rename_i operand hnext
    split
    · rename_i hdivides
      have hoperand : operand ∈ s.after := List.mem_of_head? hnext
      have hkind : operand.kind = .int ∨ operand.kind = .float := by
        rw [Bool.and_eq_true, Bool.or_eq_true, beq_iff_eq, beq_iff_eq] at hdivides
        exact hdivides.2
      rw [isZeroNumeral, if_pos (h operand hoperand hkind)]
      simp only [bind, Except.bind]
      split <;> exact ⟨_, rfl⟩
    · exact ⟨none, rfl⟩

theorem returns_divisionByZero : Returns (fun _ => True) (divisionByZero.check ctx) := by
  refine .ofExcept ?_
  have hspots : ∃ found, (documentSpots ctx.analysis.document).mapM
      (fun p => zeroDivision? p.2) = Except.ok found := by
    refine exists_mapM_eq_ok ?_
    rintro ⟨index, s⟩ hs
    obtain ⟨line, hline, hs⟩ := List.mem_flatMap.1 hs
    obtain ⟨s', hs', heq⟩ := List.mem_map.1 hs
    obtain ⟨-, rfl⟩ := Prod.mk.inj heq
    exact exists_zeroDivision?_eq_ok fun t ht => ha.isNumeric hline (mem_of_mem_after hs' ht)
  obtain ⟨found, hfound⟩ := hspots
  refine ⟨found.filterMap id, ?_, trivial⟩
  show (do
    let found ← (documentSpots ctx.analysis.document).mapM fun p => zeroDivision? p.2
    return found.filterMap id) = Except.ok _
  rw [hfound]
  rfl

end

/-! ### All rules -/

/-- No rule fails on a text. -/
theorem returns_check {ctx : RuleContext} (ha : ctx.analysis.IsRead)
    (hwidth : 0 < ctx.settings.indentWidth) {r : Rule} (hr : r ∈ Rule.all) :
    Returns (fun _ => True) (r.check ctx) := by
  have htypes (d : Declaration) (hd : d ∈ ctx.analysis.table.declarations) :
      Infer.returns.rel Ty.WellFormed (ctx.analysis.declarationType d)
        (ctx.analysis.declarationType d) := Analysis.returns_declarationType ha hd
  simp only [Rule.all, List.mem_cons, List.not_mem_nil, or_false] at hr
  rcases hr with rfl | rfl | rfl | rfl | rfl | rfl | rfl | rfl | rfl | rfl | rfl | rfl | rfl |
    rfl | rfl | rfl | rfl | rfl | rfl | rfl | rfl | rfl | rfl | rfl | rfl
  -- All but seven rules are computed without a fault to meet.
  all_goals first
    | exact .pure trivial
    | exact returns_missingEnd ha
    | exact returns_strayEnd ha
    | exact returns_indentation hwidth
    | exact returns_divisionByZero ha
    | exact rel_assignmentTypeMismatch htypes
    | exact rel_incompatibleComparison htypes
    | exact rel_unknownMember htypes

end Rule

/-- Rules that return are reported without a warning. -/
theorem Report.warnings_collect_eq_nil {ctx : RuleContext} {rules : List Rule}
    (h : ∀ r ∈ rules, Returns (fun _ => True) (r.check ctx)) {memo : Memo}
    (hmemo : memo.WellTyped) : ((collect ctx rules).run memo).1.2 = [] := by
  induction rules generalizing memo with
  | nil => rfl
  | cons r rules ih =>
      have ih {memo' : Memo} (hmemo' : memo'.WellTyped) :
          ((collect ctx rules).run memo').1.2 = [] :=
        ih (fun s hs => h s (List.mem_cons_of_mem _ hs)) hmemo'
      rw [collect]
      split
      · have hrun : Returns (fun _ => True) (r.run ctx) :=
          .bind (h r (List.mem_cons_self ..)) fun _ _ => .pure trivial
        obtain ⟨found, memo', hafter, -, hmemo'⟩ := hrun memo hmemo
        rw [Infer.after] at hafter
        rw [StateT.run_bind, hafter]
        exact ih hmemo'
      · exact ih hmemo

end Polyloft
