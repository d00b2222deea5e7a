import Polyloft.Proofs.BlankLine.Declaration
import Polyloft.Proofs.Causal.Scope
import Polyloft.Proofs.Place.Declaration

/-!
# Polyloft.Proofs.Causal.Declaration

What the first lines of a document declare does not depend on the lines behind them. A line declares
what its own text says, and where that lives is asked of the scope tree at this line only; so two
documents with the same first lines have tables that begin alike (`SameFirstLines.lineDecls_eq`).
-/

namespace Polyloft

open Polyloft.Text

/-! ### What a line declares -/

namespace Collect

/-- What a line declares depends on the tree only through the frames of the line. -/
theorem addLine_congr {tree tree' : ScopeTree} {line : Line} (table : DeclarationTable)
    (hframeAt : tree'.frameAt? line.index = tree.frameAt? line.index)
    (hopened : tree'.openedAt? line.index = tree.openedAt? line.index)
    (howner : ownerOf tree' line = ownerOf tree line)
    (hcaught : ∀ name type, caughtDecls tree' line name type = caughtDecls tree line name type) :
    addLine tree' table line = addLine tree table line := by
  have hframe : frameOf tree' line = frameOf tree line := by rw [frameOf, frameOf, hframeAt]
  have hbody : bodyOf tree' line = bodyOf tree line := by rw [bodyOf, bodyOf, hopened]
  simp only [addLine, addUnworded, addVariable, classDecls, functionDecls, variableDecl, loopDecls,
    memberDecls, hframe, hbody, howner, hcaught, hframeAt]

/-- The first part of a tree serves the first lines. -/
theorem addLine_firstPart {tree : ScopeTree} {m k : Nat} (h : tree.Settled m k) {line : Line}
    (hline : line.index < k) (table : DeclarationTable) :
    addLine (tree.firstPart m k) table line = addLine tree table line := by
  have hframeAt := h.frameAt?_firstPart hline
  refine addLine_congr table hframeAt (h.openedAt?_firstPart hline) ?_ ?_
  · rw [ownerOf, ownerOf, hframeAt]
    cases hf : tree.frameAt? line.index with
    | none => rfl
    | some f =>
        obtain ⟨hlt, hid⟩ := h.id_lt_of_frameAt? hline hf
        simp only [Option.bind_some, h.parent_firstPart hlt hid]
  · intro name type
    rw [caughtDecls, caughtDecls, hframeAt]
    cases tree.frameAt? line.index with
    | none => rfl
    | some f => simp only [Option.bind_some, h.branchAt?_firstPart hline]

theorem stacked_addLine (tree : ScopeTree) (table : DeclarationTable) (line : Line) :
    (addLine tree table line).stacked = table.stacked ++ (addLine tree {} line).stacked := by
  unfold addLine addUnworded addVariable add
  repeat' split
  all_goals simp

theorem stacked_foldl_addLine (tree : ScopeTree) (lines : List Line) (table : DeclarationTable) :
    (lines.foldl (addLine tree) table).stacked =
      table.stacked ++ lines.flatMap fun l => (addLine tree {} l).stacked := by
  induction lines generalizing table with
  | nil => simp
  | cons line lines ih =>
      rw [List.foldl_cons, ih, stacked_addLine tree table line, List.flatMap_cons,
        List.append_assoc]

end Collect

/-- Everything that a line adds stands on it. -/
theorem Collect.covered_addLine_self (tree : ScopeTree) (line : Line) :
    DeclarationTable.Covered ⟨[line], none⟩ (addLine tree {} line) :=
  covered_addLine (List.mem_singleton.2 rfl) ⟨by simp, by simp, by simp⟩

theorem Collect.line_of_mem_stacked {tree : ScopeTree} {line : Line} {s : StackedDeclarators}
    (h : s ∈ (addLine tree {} line).stacked) : s.line = line.index := by
  obtain ⟨l, hl, hcovers⟩ := (covered_addLine_self tree line).stacked s h
  obtain rfl := List.mem_singleton.1 hl
  exact Int.natCast_inj.1 hcovers.line_eq

/-! ### Documents with the same first lines -/

namespace SameFirstLines

variable {k : Nat} {doc doc' : Document} (h : SameFirstLines k doc doc')
include h

/-- The first lines add the same declarations, also the stacked ones. -/
theorem addLine_eq {l : Line} (hl : l ∈ doc.lines.take k) :
    Collect.lineDecls (ScopeTree.build doc') l = Collect.lineDecls (ScopeTree.build doc) l ∧
      (Collect.addLine (ScopeTree.build doc') {} l).stacked =
        (Collect.addLine (ScopeTree.build doc) {} l).stacked := by
  rcases h.le_size_or_lines_eq with ⟨hk, hk'⟩ | hlines
  · obtain ⟨hsize, hmoved⟩ := ScopeTree.moved_firstPart h hk hk'
    have hsettled' := ScopeTree.settled_build h.numbered' hk'
    rw [hsize] at hsettled'
    have hlt := (h.numbered.mem_take_iff.1 hl).2
    have hsettled := ScopeTree.settled_build h.numbered hk
    have hadd := Collect.addLine_moved hmoved l {}
    rw [h.moved_eq hl, Collect.addLine_firstPart hsettled hlt] at hadd
    replace hadd := (Collect.addLine_firstPart hsettled' hlt {}).symm.trans hadd
    refine ⟨?_, ?_⟩
    · rw [Collect.lineDecls, hadd]
      refine (List.map_congr_left fun d hd => ?_).trans (List.map_id _)
      have hline := (Collect.declares_lineDecls (ScopeTree.build doc) l).line_eq hd
      rw [Declaration.moved, hline, movedLine_of_lt hlt, ← hline, id]
    · rw [hadd]
      refine (List.map_congr_left fun s hs => ?_).trans (List.map_id _)
      have hline := Collect.line_of_mem_stacked hs
      rw [StackedDeclarators.moved, hline, movedLine_of_lt hlt, ← hline, id]
  · rw [ScopeTree.build_congr hlines]
    exact ⟨rfl, rfl⟩

end SameFirstLines


end Polyloft
