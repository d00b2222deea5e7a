import Polyloft.Proofs.Causal.Declaration
import Polyloft.Proofs.Place.Report
import Polyloft.Proofs.Rule.Total

/-!
# Polyloft.Proofs.Causal.Report

Errors on the first lines of a document do not depend on the lines behind them. Each rule that
reports errors judges a line by its tokens, by the kinds of construct around it or by declarations
that stand on it or before it; all this is settled by the first lines
(`Polyloft.Proofs.Causal.Scope`, `Polyloft.Proofs.Causal.Declaration`). The exception is the rule on
reassigned constants: functions are visible before they are declared, so a later one may shadow the
constant that a name would mean.

Each rule is followed in one direction only, from the first document to the second
(`Rule.Keeps`). As the relation between the documents is symmetric, this is enough.
-/

namespace Polyloft

open Polyloft.Text

theorem ScopeTree.AgreeAt.symm {tree tree' : ScopeTree} {n : Nat} (h : tree.AgreeAt tree' n) :
    tree'.AgreeAt tree n :=
  ⟨h.frameAt.symm, h.around.symm, fun kind => (h.contains kind).symm⟩

/-! ### Analyses -/

/-- Two analyses that see the same of the first `k` lines. -/
structure Analysis.AgreeUpTo (k : Nat) (a a' : Analysis) : Prop where
  document : SameFirstLines k a.document a'.document
  tree : ∀ {n : Nat}, n < k → a.tree.AgreeAt a'.tree n
  declarations : ∃ first later later', a.table.declarations = first ++ later ∧
    a'.table.declarations = first ++ later' ∧ (∀ d ∈ later, k ≤ d.line) ∧
    ∀ d ∈ later', k ≤ d.line
  stacked : ∀ {s : StackedDeclarators}, s.line < k →
    (s ∈ a.table.stacked ↔ s ∈ a'.table.stacked)

theorem Analysis.AgreeUpTo.symm {k : Nat} {a a' : Analysis} (h : a.AgreeUpTo k a') :
    a'.AgreeUpTo k a where
  document := h.document.symm
  tree := fun hn => (h.tree hn).symm
  declarations := by
    obtain ⟨first, later, later', heq, heq', hlater, hlater'⟩ := h.declarations
    exact ⟨first, later', later, heq', heq, hlater', hlater⟩
  stacked := fun hs => (h.stacked hs).symm

namespace SameFirstLines

variable {k : Nat} {doc doc' : Document} (h : SameFirstLines k doc doc')
include h

/-- Lines that are not among the first ones declare on later lines. -/
theorem le_line_of_mem_drop {tree : ScopeTree} {d : Declaration}
    (hd : d ∈ (doc.lines.drop k).flatMap (Collect.lineDecls tree)) : k ≤ d.line := by
  obtain ⟨l, hl, hd⟩ := List.mem_flatMap.1 hd
  obtain ⟨n, hn⟩ := List.getElem?_of_mem hl
  rw [List.getElem?_drop] at hn
  rw [(Collect.declares_lineDecls tree l).line_eq hd, h.numbered.index_eq hn]
  exact Nat.le_add_right k n

/-- The tables begin alike, and what follows is declared on later lines. -/
theorem exists_declarations_eq : ∃ first later later',
    (DeclarationTable.collect doc (.build doc)).declarations = first ++ later ∧
    (DeclarationTable.collect doc' (.build doc')).declarations = first ++ later' ∧
    (∀ d ∈ later, k ≤ d.line) ∧ ∀ d ∈ later', k ≤ d.line := by
  refine ⟨(doc.lines.take k).flatMap (Collect.lineDecls (.build doc)),
    (doc.lines.drop k).flatMap (Collect.lineDecls (.build doc)),
    (doc'.lines.drop k).flatMap (Collect.lineDecls (.build doc')), ?_, ?_,
    fun d => h.le_line_of_mem_drop, fun d => h.symm.le_line_of_mem_drop⟩
  · rw [DeclarationTable.declarations_collect, ← List.flatMap_append, List.take_append_drop]
  · have hfirst : (doc.lines.take k).flatMap (Collect.lineDecls (.build doc)) =
        (doc'.lines.take k).flatMap (Collect.lineDecls (.build doc')) := by
      rw [← h.lines]
      exact List.flatMap_congr fun l hl => (h.addLine_eq hl).1.symm
    rw [DeclarationTable.declarations_collect, hfirst, ← List.flatMap_append,
      List.take_append_drop]

theorem mem_stacked_of_mem {s : StackedDeclarators} (hlt : s.line < k)
    (hs : s ∈ (DeclarationTable.collect doc (.build doc)).stacked) :
    s ∈ (DeclarationTable.collect doc' (.build doc')).stacked := by
  rw [DeclarationTable.collect, Collect.stacked_foldl_addLine] at hs ⊢
  obtain ⟨l, hl, hs⟩ := List.mem_flatMap.1 hs
  have hline := Collect.line_of_mem_stacked hs
  have hltl : l.index < k := by omega
  have hmem := h.numbered.mem_take_iff.2 ⟨hl, hltl⟩
  rw [← (h.addLine_eq hmem).2] at hs
  exact List.mem_flatMap.2 ⟨l, h.mem_of_lt hl hltl, hs⟩

end SameFirstLines

theorem Analysis.agreeUpTo_ofText {k : Nat} {text text' : List Char}
    (h : (linesOf text).take k = (linesOf text').take k) (uri uri' : Option String)
    (catalog : Catalog) : (ofText text uri catalog).AgreeUpTo k (ofText text' uri' catalog) where
  document := sameFirstLines_ofText h uri uri'
  tree := fun hn => (sameFirstLines_ofText h uri uri').agreeAt hn
  declarations := (sameFirstLines_ofText h uri uri').exists_declarations_eq
  stacked := fun hs =>
    ⟨(sameFirstLines_ofText h uri uri').mem_stacked_of_mem hs,
      (sameFirstLines_ofText h uri uri').symm.mem_stacked_of_mem hs⟩

/-! ### Rules -/

/-- The rule finds again what it finds on the first `k` lines, whatever is remembered. -/
def Rule.Keeps (k : Nat) (ctx ctx' : RuleContext) (r : Rule) : Prop :=
  ∃ findings findings', r.Finds ctx findings ∧ r.Finds ctx' findings' ∧
    ∀ f ∈ findings, f.range.line < k → f ∈ findings'

namespace Rule

theorem Keeps.ofFindings {name code description : String} {severity : Severity}
    {find : Analysis → List Finding} {k : Nat} {ctx ctx' : RuleContext}
    (h : ∀ f ∈ find ctx.analysis, f.range.line < k → f ∈ find ctx'.analysis) :
    (Rule.ofFindings name code severity description find).Keeps k ctx ctx' :=
  ⟨find ctx.analysis, find ctx'.analysis, finds_of_check_eq_pure rfl, finds_of_check_eq_pure rfl, h⟩

/-- A variable declared again is judged by what was declared before it. -/
theorem exists_duplicatesAfter_append (first ds : List Declaration) :
    ∃ first', ∀ es, duplicatesAfter first (ds ++ es) =
      duplicatesAfter first ds ++ duplicatesAfter first' es := by
  fun_induction duplicatesAfter first ds with
  | case1 first => exact ⟨first, fun es => rfl⟩
  | case2 first d ds hunique hnone ih =>
      obtain ⟨first', ih⟩ := ih
      refine ⟨first', fun es => ?_⟩
      rw [List.cons_append, duplicatesAfter, if_pos hunique, hnone]
      exact ih es
  | case3 first d ds hunique e hfound ih =>
      obtain ⟨first', ih⟩ := ih
      refine ⟨first', fun es => ?_⟩
      rw [List.cons_append, duplicatesAfter, if_pos hunique, hfound]
      exact congrArg _ (ih es)
  | case4 first d ds hunique ih =>
      obtain ⟨first', ih⟩ := ih
      refine ⟨first', fun es => ?_⟩
      rw [List.cons_append, duplicatesAfter, if_neg hunique]
      exact ih es

section

variable {k : Nat} {ctx ctx' : RuleContext} (h : ctx.analysis.AgreeUpTo k ctx'.analysis)
include h

/-- A line with a place on the first lines is a line of the other document. -/
theorem mem_lines_of_covers {l : Line} (hl : l ∈ ctx.analysis.document.lines) {r : Range}
    (hcovers : l.Covers r) (hlt : r.line < k) : l ∈ ctx'.analysis.document.lines ∧ l.index < k := by
  rw [hcovers.line_eq] at hlt
  have hlt : l.index < k := by omega
  exact ⟨h.document.mem_of_lt hl hlt, hlt⟩

/-- So is a line with a token there. -/
theorem mem_lines_of_token {l : Line} (hl : l ∈ ctx.analysis.document.lines) {t : Token}
    (ht : t ∈ l.codeTokens) (hlt : (t.line : Int) < k) :
    l ∈ ctx'.analysis.document.lines ∧ l.index < k :=
  mem_lines_of_covers h hl ((h.document.fits l hl).covers_range (Line.mem_tokens ht)) hlt

theorem mem_codeTokens_of_lt {t : Token} (ht : t ∈ ctx.analysis.document.codeTokens)
    (hlt : (t.line : Int) < k) : t ∈ ctx'.analysis.document.codeTokens := by
  obtain ⟨l, hl, ht⟩ := List.mem_flatMap.1 ht
  exact List.mem_flatMap.2 ⟨l, (mem_lines_of_token h hl ht hlt).1, ht⟩

theorem keeps_unterminatedString : unterminatedString.Keeps k ctx ctx' := by
  refine .ofFindings fun f hf hlt => ?_
  obtain ⟨l, hl, hf⟩ := List.mem_filterMap.1 hf
  obtain ⟨t, -, rfl⟩ := Option.map_eq_some_iff.1 hf
  exact List.mem_filterMap.2 ⟨l, h.document.mem_of_lt hl (Int.ofNat_lt.1 hlt), hf⟩

theorem keeps_invalidFunctionHeader : invalidFunctionHeader.Keeps k ctx ctx' := by
  refine .ofFindings fun f hf hlt => ?_
  obtain ⟨l, hl, hf⟩ := List.mem_filterMap.1 hf
  refine List.mem_filterMap.2 ⟨l, ?_, hf⟩
  unfold malformedHeader? at hf
  split at hf
  · simp at hf
  · rename_i word rest hdrop
    dsimp only at hf
    split at hf
    · obtain rfl := Option.some.inj hf
      have hsuffix : word :: rest <:+ l.codeTokens := hdrop ▸ List.dropWhile_suffix _
      exact (mem_lines_of_token h hl (hsuffix.subset List.mem_cons_self) hlt).1
    · simp at hf

theorem keeps_multipleDeclarators : multipleDeclarators.Keeps k ctx ctx' := by
  refine .ofFindings fun f hf hlt => ?_
  obtain ⟨s, hs, rfl⟩ := List.mem_map.1 hf
  exact List.mem_map.2 ⟨s, (h.stacked (Int.ofNat_lt.1 hlt)).1 hs, rfl⟩

theorem keeps_duplicateDeclaration : duplicateDeclaration.Keeps k ctx ctx' := by
  refine .ofFindings fun f hf hlt => ?_
  obtain ⟨first, later, later', heq, heq', hlater, -⟩ := h.declarations
  obtain ⟨seen, hseen⟩ := exists_duplicatesAfter_append [] first
  rw [heq, hseen] at hf
  rw [heq', hseen]
  rcases List.mem_append.1 hf with hf | hf
  · exact List.mem_append_left _ hf
  · obtain ⟨d, hd, hrange⟩ := mem_of_mem_duplicatesAfter hf
    have hle := hlater d hd
    rw [hrange] at hlt
    exact absurd (Int.ofNat_lt.1 hlt) (by omega)

/-- Words that need a construct around them. -/
theorem mem_misplaced_of_lt {words : List String} {kind : BlockKind} {t : Token}
    (ht : t ∈ ctx.analysis.document.lines.filterMap (misplacedIn ctx.analysis words kind))
    (hlt : (t.line : Int) < k) :
    t ∈ ctx'.analysis.document.lines.filterMap (misplacedIn ctx'.analysis words kind) := by
  obtain ⟨l, hl, ht⟩ := List.mem_filterMap.1 ht
  have hfind := (Option.filter_eq_some_iff.1 ht).1
  obtain ⟨hl', hltl⟩ := mem_lines_of_token h hl (List.mem_of_find?_eq_some hfind) hlt
  refine List.mem_filterMap.2 ⟨l, hl', ?_⟩
  rwa [misplacedIn, (h.tree hltl).contains kind]

theorem keeps_thisOutsideClass : thisOutsideClass.Keeps k ctx ctx' := by
  refine .ofFindings fun f hf hlt => ?_
  obtain ⟨t, ht, rfl⟩ := List.mem_map.1 hf
  exact List.mem_map.2 ⟨t, mem_misplaced_of_lt h ht hlt, rfl⟩

theorem keeps_returnOutsideFunction : returnOutsideFunction.Keeps k ctx ctx' := by
  refine .ofFindings fun f hf hlt => ?_
  obtain ⟨t, ht, rfl⟩ := List.mem_map.1 hf
  exact List.mem_map.2 ⟨t, mem_misplaced_of_lt h ht hlt, rfl⟩

theorem keeps_breakOutsideLoop : breakOutsideLoop.Keeps k ctx ctx' := by
  refine .ofFindings fun f hf hlt => ?_
  obtain ⟨t, ht, rfl⟩ := List.mem_map.1 hf
  exact List.mem_map.2 ⟨t, mem_misplaced_of_lt h ht hlt, rfl⟩

theorem keeps_wordOperator : wordOperator.Keeps k ctx ctx' := by
  refine .ofFindings fun f hf hlt => ?_
  obtain ⟨l, hl, hf⟩ := List.mem_flatMap.1 hf
  refine List.mem_flatMap.2 ⟨l, ?_, hf⟩
  obtain ⟨s, hs, hf⟩ := List.mem_filterMap.1 hf
  obtain ⟨operator, -, hf⟩ := Option.bind_eq_some_iff.1 hf
  split at hf
  · obtain rfl := Option.some.inj hf
    exact (mem_lines_of_covers h hl ((h.document.fits l hl).covers_token hs) hlt).1
  · simp at hf

theorem keeps_twoDotRange : twoDotRange.Keeps k ctx ctx' := by
  refine .ofFindings fun f hf hlt => ?_
  obtain ⟨t, ht, rfl⟩ := List.mem_map.1 hf
  obtain ⟨ht, hdots⟩ := List.mem_filter.1 ht
  exact List.mem_map.2 ⟨t, List.mem_filter.2 ⟨mem_codeTokens_of_lt h ht hlt, hdots⟩, rfl⟩

theorem keeps_dollarInterpolation : dollarInterpolation.Keeps k ctx ctx' := by
  refine .ofFindings fun f hf hlt => ?_
  obtain ⟨t, ht, hf⟩ := List.mem_flatMap.1 hf
  obtain ⟨ht, hstring⟩ := List.mem_filter.1 ht
  refine List.mem_flatMap.2 ⟨t, List.mem_filter.2 ⟨?_, hstring⟩, hf⟩
  obtain ⟨start, -, rfl⟩ := List.mem_map.1 hf
  exact mem_codeTokens_of_lt h ht hlt

end

theorem mem_of_mapM_eq_ok {α β : Type} {check : α → Except Fault β} {xs : List α} {ys : List β}
    (h : xs.mapM check = .ok ys) {x : α} (hx : x ∈ xs) {y : β} (hy : check x = .ok y) : y ∈ ys := by
  induction xs generalizing ys with
  | nil => simp at hx
  | cons z xs ih =>
      rw [List.mapM_cons] at h
      obtain ⟨v, hv, h⟩ := exists_of_bind_eq_ok h
      obtain ⟨vs, hvs, h⟩ := exists_of_bind_eq_ok h
      obtain rfl := Except.ok.inj h
      rcases List.mem_cons.1 hx with rfl | hx
      · rw [hy] at hv
        exact Except.ok.inj hv ▸ List.mem_cons_self
      · exact List.mem_cons_of_mem _ (ih hvs hx)

/-- On a text every divisor is a numeral, so all divisions are judged. -/
theorem exists_finds_divisionByZero {ctx : RuleContext} (ha : ctx.analysis.IsRead) :
    ∃ found, (documentSpots ctx.analysis.document).mapM (fun p => zeroDivision? p.2) = .ok found ∧
      divisionByZero.Finds ctx (found.filterMap id) := by
  obtain ⟨findings, memo, hafter, -⟩ := returns_divisionByZero ha {} Memo.wellTyped_empty
  obtain ⟨found, hfound, -⟩ := exists_of_bind_eq_ok (Prod.mk.inj hafter).1
  refine ⟨found, hfound, finds_of_check_eq_ofExcept rfl ?_⟩
  exact congrArg (· >>= fun found => pure (found.filterMap id)) hfound

theorem keeps_divisionByZero {k : Nat} {ctx ctx' : RuleContext}
    (h : ctx.analysis.AgreeUpTo k ctx'.analysis) (ha : ctx.analysis.IsRead)
    (ha' : ctx'.analysis.IsRead) : divisionByZero.Keeps k ctx ctx' := by
  obtain ⟨found, hfound, hfinds⟩ := exists_finds_divisionByZero ha
  obtain ⟨found', hfound', hfinds'⟩ := exists_finds_divisionByZero ha'
  refine ⟨_, _, hfinds, hfinds', fun f hf hlt => ?_⟩
  obtain ⟨_, hmem, rfl⟩ := List.mem_filterMap.1 hf
  obtain ⟨⟨n, s⟩, hs, hdivision⟩ := exists_of_mem_mapM hfound hmem
  obtain ⟨l, hl, rfl, hspot⟩ := mem_documentSpots hs
  have hcovers := covers_of_zeroDivision? (h.document.fits l hl) hspot hdivision
  have hs' : (l.index, s) ∈ documentSpots ctx'.analysis.document :=
    List.mem_flatMap.2 ⟨l, (mem_lines_of_covers h hl hcovers hlt).1, List.mem_map.2 ⟨s, hspot, rfl⟩⟩
  exact List.mem_filterMap.2 ⟨some f, mem_of_mapM_eq_ok hfound' hs' hdivision, rfl⟩

/-- Every rule for errors, but for reassigned constants, finds again what it finds on the first
lines. -/
theorem keeps_of_mem {k : Nat} {ctx ctx' : RuleContext}
    (h : ctx.analysis.AgreeUpTo k ctx'.analysis) (ha : ctx.analysis.IsRead)
    (ha' : ctx'.analysis.IsRead) {r : Rule} (hr : r ∈ Rule.all) (hseverity : r.severity = .error)
    (hcode : r.code ≠ "PF-E005") : r.Keeps k ctx ctx' := by
  simp only [Rule.all, List.mem_cons, List.not_mem_nil, or_false] at hr
  rcases hr with rfl | rfl | rfl | rfl | rfl | rfl | rfl | rfl | rfl | rfl | rfl | rfl | rfl |
    rfl | rfl | rfl | rfl | rfl | rfl | rfl | rfl | rfl | rfl | rfl | rfl
  · exact keeps_unterminatedString h
  · exact absurd hseverity (by decide)
  · exact absurd hseverity (by decide)
  · exact absurd hseverity (by decide)
  · exact keeps_invalidFunctionHeader h
  · exact absurd hseverity (by decide)
  · exact absurd hseverity (by decide)
  · exact keeps_multipleDeclarators h
  · exact keeps_duplicateDeclaration h
  · exact absurd rfl hcode
  · exact keeps_thisOutsideClass h
  · exact keeps_returnOutsideFunction h
  · exact keeps_breakOutsideLoop h
  · exact absurd hseverity (by decide)
  · exact absurd hseverity (by decide)
  · exact absurd hseverity (by decide)
  · exact absurd hseverity (by decide)
  · exact absurd hseverity (by decide)
  · exact absurd hseverity (by decide)
  · exact keeps_divisionByZero h ha ha'
  · exact absurd hseverity (by decide)
  · exact keeps_wordOperator h
  · exact keeps_twoDotRange h
  · exact keeps_dollarInterpolation h
  · exact absurd hseverity (by decide)

end Rule

/-! ### Reports -/

namespace Diagnostic

/-- An error on the first `k` lines, other than a reassigned constant. -/
def IsEarlyError (k : Nat) (d : Diagnostic) : Prop :=
  d.severity = .error ∧ d.code ≠ "PF-E005" ∧ d.range.line < k

instance (k : Nat) (d : Diagnostic) : Decidable (d.IsEarlyError k) :=
  inferInstanceAs (Decidable (_ ∧ _ ∧ _))

end Diagnostic

/-- Early errors are found again. -/
theorem Report.mem_foundBy_of_isEarlyError {k : Nat} {a a' : Analysis} (h : a.AgreeUpTo k a')
    (ha : a.IsRead) (ha' : a'.IsRead) {settings : Settings} {d : Diagnostic}
    (hd : d ∈ foundBy ⟨a, settings⟩ Rule.all {}) (hearly : d.IsEarlyError k) :
    d ∈ foundBy ⟨a', settings⟩ Rule.all {} := by
  obtain ⟨hseverity, hcode, hline⟩ := hearly
  obtain ⟨r, hr, f, rfl⟩ := isOf_of_mem_foundBy hd
  have hkeeps : r.Keeps k ⟨a, settings⟩ ⟨a', settings⟩ :=
    Rule.keeps_of_mem h ha ha' hr hseverity hcode
  obtain ⟨findings, findings', hfinds, hfinds', hkeeps⟩ := hkeeps
  obtain ⟨henabled, g, hg, heq⟩ :=
    (mem_foundBy_iff_of_finds nodup_codes_all hr hfinds).1 ⟨hd, rfl⟩
  have hrange : f.range = g.range := congrArg Diagnostic.range heq
  have hg' := hkeeps g hg (hrange ▸ hline)
  exact ((mem_foundBy_iff_of_finds nodup_codes_all hr hfinds').2 ⟨henabled, g, hg', heq⟩).1

theorem Analyzer.filter_isEarlyError_eq (z : Analyzer) (hmax : z.settings.maxDiagnostics = 0)
    {text text' : List Char} {k : Nat} (h : (linesOf text).take k = (linesOf text').take k)
    (uri uri' : Option String) :
    (z.analyze text' uri').diagnostics.filter (·.IsEarlyError k) =
      (z.analyze text uri).diagnostics.filter (·.IsEarlyError k) := by
  by_cases henabled : z.settings.enabled = true
  · have hread := Analysis.isRead_ofText text uri z.catalog
    have hread' := Analysis.isRead_ofText text' uri' z.catalog
    have hagree := Analysis.agreeUpTo_ofText h uri uri' z.catalog
    rw [diagnostics_analyze henabled hmax, diagnostics_analyze henabled hmax]
    refine Report.filter_arrange_eq Report.nodup_codes_all
      (fun d hd => Report.isOf_of_mem_foundBy hd) ?_
    intro d hearly
    rw [decide_eq_true_eq] at hearly
    constructor
    · intro hd
      exact Report.mem_foundBy_of_isEarlyError hagree.symm hread' hread hd hearly
    · intro hd
      exact Report.mem_foundBy_of_isEarlyError hagree hread hread' hd hearly
  · simp [analyze, henabled]

/-- Analysis is causal. If two texts have the same first `k` lines, then each of these lines lies in
the same frame of both scope trees, has the same frames around it, and is inside the same kinds of
construct; and the errors on these lines are the same, but for reassigned constants. -/
theorem Analyzer.first_lines_settle (z : Analyzer) (hmax : z.settings.maxDiagnostics = 0)
    (text text' : List Char) (uri uri' : Option String) (k : Nat)
    (h : (linesOf text).take k = (linesOf text').take k) :
    (∀ n < k, (ScopeTree.build (.ofText text uri)).AgreeAt (.build (.ofText text' uri')) n) ∧
      (z.analyze text' uri').diagnostics.filter (·.IsEarlyError k) =
        (z.analyze text uri).diagnostics.filter (·.IsEarlyError k) :=
  ⟨fun _ hn => (sameFirstLines_ofText h uri uri').agreeAt hn,
    z.filter_isEarlyError_eq hmax h uri uri'⟩

/-- A class that is closed in one text, and that goes on in the other one with a function that
shadows a constant and with a loop. -/
theorem Analyzer.first_lines_settle_shadowedConstant :
    let text := "const a = 1\nclass C:\n  return 1 / 0\n  a = 2\n  break\nend\nend".toList
    let text' :=
      "const a = 1\nclass C:\n  return 1 / 0\n  a = 2\n  break\n  def a():\n  while x:".toList
    let d : Diagnostic := ⟨⟨4, 2, 7⟩, "'break' statement can only be used inside loops", .error,
      "PF-E008", "break-outside-loop"⟩
    (linesOf text).take 5 = (linesOf text').take 5 ∧
      d ∈ (unresolving.analyze text none).diagnostics.filter (·.IsEarlyError 5) ∧
      (∀ n < 5, (ScopeTree.build (.ofText text none)).AgreeAt (.build (.ofText text' none)) n) ∧
      (unresolving.analyze text' none).diagnostics.filter (·.IsEarlyError 5) =
        (unresolving.analyze text none).diagnostics.filter (·.IsEarlyError 5) := by
  intro text text' d
  have h : (linesOf text).take 5 = (linesOf text').take 5 := by decide +kernel
  have hd : d ∈ (unresolving.analyze text none).diagnostics.filter (·.IsEarlyError 5) := by
    rw [diagnostics_analyze rfl rfl, List.mem_filter, Report.mem_arrange]
    decide +kernel
  exact ⟨h, hd, unresolving.first_lines_settle rfl text text' none none 5 h⟩

end Polyloft
