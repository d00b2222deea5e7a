import Polyloft.Proofs.Analyzer
import Polyloft.Proofs.Comment.Bare
import Polyloft.Proofs.Rule.Direct

/-!
# Polyloft.Proofs.Comment.Report

Comments do not influence the rules. Every rule but the one on indentation finds in a document what
it finds in the document without comments (`Rule.IgnoresComments`). The rule on indentation looks at
the raw text in front of the first token, where a comment may stand; it asks for no types, so it
leaves the memo as it is, and the rules behind it are not disturbed.
-/

namespace Polyloft

open Polyloft.Text

namespace Rule

/-- The rule finds what it finds without comments. -/
def IgnoresComments (r : Rule) : Prop :=
  ∀ a settings, r.check ⟨a.bare, settings⟩ = r.check ⟨a, settings⟩

theorem IgnoresComments.ofFindings {name code description : String} {severity : Severity}
    {find : Analysis → List Finding} (h : ∀ a : Analysis, find a.bare = find a) :
    (Rule.ofFindings name code severity description find).IgnoresComments :=
  fun a _ => congrArg pure (h a)

theorem IgnoresComments.ofChecks {name code description : String} {severity : Severity}
    {find : RuleContext → Except Fault (List Finding)}
    (h : ∀ (a : Analysis) (settings : Settings), find ⟨a.bare, settings⟩ = find ⟨a, settings⟩) :
    (Rule.ofChecks name code severity description find).IgnoresComments :=
  fun a settings => congrArg Infer.ofExcept (h a settings)

theorem IgnoresComments.ofInference {name code description : String} {severity : Severity}
    {find : Analysis → Infer (List Finding)} (h : ∀ a : Analysis, find a.bare = find a) :
    (Rule.ofInference name code severity description find).IgnoresComments :=
  fun a _ => h a

/-! ### The shape of a document -/

/-- Tokens that are no comments are found among the code tokens. -/
theorem find?_codeTokens {p : Token → Bool} (hp : ∀ t, p t = true → t.kind ≠ .comment)
    (tokens : List Token) : (codeTokens tokens).find? p = tokens.find? p := by
  rw [codeTokens, List.find?_filter]
  congr 1
  funext t
  by_cases ht : p t = true
  · simp [ht, hp t ht]
  · simp [ht]

theorem unterminatedIn_bare (l : Line) : unterminatedIn l.bare = unterminatedIn l := by
  have hfind : l.bare.tokens.find? (fun t => t.kind == .string && !t.terminated) =
      l.tokens.find? fun t => t.kind == .string && !t.terminated := by
    refine find?_codeTokens (fun t ht => ?_) l.tokens
    simp only [Bool.and_eq_true, beq_iff_eq] at ht
    rw [ht.1]
    decide
  rw [unterminatedIn, unterminatedIn, hfind, Line.index_bare, Line.length_text_bare]

theorem ignoresComments_unterminatedString : unterminatedString.IgnoresComments := by
  refine .ofFindings fun a => ?_
  rw [Analysis.document_bare, Document.lines_bare, List.filterMap_map]
  exact congrArg (a.document.lines.filterMap ·) (funext unterminatedIn_bare)

theorem ignoresComments_unmatchedBrace : unmatchedBrace.IgnoresComments :=
  .ofFindings fun a => by rw [Analysis.document_bare, Document.codeTokens_bare]

theorem ignoresComments_missingEnd : missingEnd.IgnoresComments := by
  refine .ofChecks fun a settings => ?_
  simp only [Analysis.document_bare, Analysis.tree_bare, Document.lineAt_bare, bind_map_left,
    Line.codeRange_bare]

theorem ignoresComments_strayEnd : strayEnd.IgnoresComments := by
  refine .ofChecks fun a settings => ?_
  simp only [Analysis.document_bare, Analysis.tree_bare, Document.lineAt_bare, bind_map_left,
    Line.codeRange_bare]

theorem ignoresComments_invalidFunctionHeader : invalidFunctionHeader.IgnoresComments := by
  refine .ofFindings fun a => ?_
  simp only [Analysis.document_bare, Document.lines_bare, List.filterMap_map, Function.comp_def,
    Line.codeTokens_bare]

/-! ### Declarations -/

theorem ignoresComments_classNaming : classNaming.IgnoresComments :=
  .ofFindings fun _ => rfl

theorem annotates_bare (tokens : List Token) (later : List Line) :
    annotates tokens (later.map Line.bare) = annotates tokens later := by
  simp only [annotates, List.find?_map, Function.comp_def, Line.isBlank_bare, Option.any_map,
    Line.codeTokens_bare]

theorem danglingIn_bare (lines : List Line) :
    danglingIn (lines.map Line.bare) = danglingIn lines := by
  induction lines with
  | nil => rfl
  | cons l later ih =>
      rw [List.map_cons, danglingIn, danglingIn, Line.codeTokens_bare]
      cases l.codeTokens with
      | nil => exact ih
      | cons first rest => simp only [annotates_bare, ih]

theorem ignoresComments_danglingMarker : danglingMarker.IgnoresComments :=
  .ofFindings fun a => danglingIn_bare a.document.lines

theorem ignoresComments_multipleDeclarators : multipleDeclarators.IgnoresComments :=
  .ofFindings fun _ => rfl

theorem ignoresComments_duplicateDeclaration : duplicateDeclaration.IgnoresComments :=
  .ofFindings fun _ => rfl

theorem ignoresComments_constReassignment : constReassignment.IgnoresComments := by
  refine .ofFindings fun a => ?_
  rw [Analysis.document_bare, Document.lines_bare, List.filterMap_map]
  refine congrArg (a.document.lines.filterMap ·) (funext fun l => ?_)
  rw [Function.comp_apply, reassignmentIn, Line.codeTokens_bare, Line.index_bare]
  rfl

theorem ignoresComments_untypedParameter : untypedParameter.IgnoresComments :=
  .ofFindings fun _ => rfl

theorem unusedIn_bare (lines : List Line) (i : ImportStatement) :
    unusedIn (lines.map Line.bare) i = unusedIn lines i := by
  simp only [unusedIn, ← List.map_drop, List.flatMap_map, Line.codeTokens_bare]

theorem ignoresComments_unusedImport : unusedImport.IgnoresComments :=
  .ofFindings fun a => congrArg (a.table.imports.flatMap ·) (funext (unusedIn_bare _))

/-! ### Statements -/

theorem misplacedIn_bare (a : Analysis) (words : List String) (kind : BlockKind) :
    a.bare.document.lines.filterMap (misplacedIn a.bare words kind) =
      a.document.lines.filterMap (misplacedIn a words kind) := by
  rw [Analysis.document_bare, Document.lines_bare, List.filterMap_map]
  refine congrArg (a.document.lines.filterMap ·) (funext fun l => ?_)
  rw [Function.comp_apply, misplacedIn, Line.codeTokens_bare, Line.index_bare]
  rfl

theorem ignoresComments_thisOutsideClass : thisOutsideClass.IgnoresComments :=
  .ofFindings fun a => by rw [misplacedIn_bare]

theorem ignoresComments_returnOutsideFunction : returnOutsideFunction.IgnoresComments :=
  .ofFindings fun a => by rw [misplacedIn_bare]

theorem ignoresComments_breakOutsideLoop : breakOutsideLoop.IgnoresComments :=
  .ofFindings fun a => by rw [misplacedIn_bare]

theorem followingIn_bare (a : Analysis) (frame : Option Frame) (later : List Line) :
    followingIn a.bare frame (later.map Line.bare) = (followingIn a frame later).map Line.bare := by
  rw [followingIn, followingIn, List.find?_map]
  simp only [Function.comp_def, Line.codeTokens_bare]
  cases later.find? fun l => !l.codeTokens.isEmpty with
  | none => rfl
  | some l =>
      simp only [Option.map_some, Option.filter, Line.codeTokens_bare, Line.index_bare,
        Analysis.tree_bare]
      split <;> rfl

theorem unreachableIn_bare (a : Analysis) (lines : List Line) :
    unreachableIn a.bare (lines.map Line.bare) = unreachableIn a lines := by
  induction lines with
  | nil => rfl
  | cons l later ih =>
      simp only [List.map_cons, unreachableIn, ih, Line.codeTokens_bare, Line.index_bare,
        Analysis.tree_bare, followingIn_bare, Option.map_map, Function.comp_def,
        Line.codeRange_bare]

theorem ignoresComments_unreachableCode : unreachableCode.IgnoresComments :=
  .ofFindings fun a => unreachableIn_bare a a.document.lines

/-! ### Spelling -/

theorem ignoresComments_wordOperator : wordOperator.IgnoresComments := by
  refine .ofFindings fun a => ?_
  simp only [Analysis.document_bare, Document.lines_bare, List.flatMap_map, Line.codeTokens_bare]

theorem ignoresComments_twoDotRange : twoDotRange.IgnoresComments :=
  .ofFindings fun a => by rw [Analysis.document_bare, Document.codeTokens_bare]

theorem ignoresComments_dollarInterpolation : dollarInterpolation.IgnoresComments :=
  .ofFindings fun a => by
    rw [Analysis.document_bare, stringTokens, Document.codeTokens_bare, stringTokens]

theorem ignoresComments_missedInterpolation : missedInterpolation.IgnoresComments :=
  .ofFindings fun a => by
    rw [Analysis.document_bare, stringTokens, Document.codeTokens_bare, stringTokens]

/-! ### Types -/

theorem documentSpots_bare (doc : Document) : documentSpots doc.bare = documentSpots doc := by
  simp only [documentSpots, Document.lines_bare, List.flatMap_map, Line.codeTokens_bare,
    Line.index_bare]

theorem ignoresComments_divisionByZero : divisionByZero.IgnoresComments :=
  .ofChecks fun a settings => by rw [Analysis.document_bare, documentSpots_bare]

theorem ignoresComments_incompatibleComparison : incompatibleComparison.IgnoresComments := by
  refine .ofInference fun a => ?_
  have hcheck (n : Nat) (s : Spot) : comparisonMismatch a.bare n s = comparisonMismatch a n s := by
    rw [comparisonMismatch, Analysis.declarationType_bare]
    rfl
  simp only [Analysis.document_bare, documentSpots_bare, hcheck]

theorem ignoresComments_unknownMember : unknownMember.IgnoresComments := by
  refine .ofInference fun a => ?_
  have hcheck (n : Nat) (s : Spot) : unknownMemberAt a.bare n s = unknownMemberAt a n s := by
    rw [unknownMemberAt, Analysis.declarationType_bare]
    rfl
  simp only [Analysis.document_bare, documentSpots_bare, hcheck]

theorem ignoresComments_assignmentTypeMismatch : assignmentTypeMismatch.IgnoresComments := by
  refine .ofInference fun a => ?_
  have hdeclared : initializerMismatch a.bare = initializerMismatch a := by
    funext d
    simp only [initializerMismatch, Analysis.infer_bare]
  have hassigned (l : Line) : assignmentMismatch a.bare l.bare = assignmentMismatch a l := by
    have hvariable : assignedVariable? a.bare l.bare = assignedVariable? a l := by
      rw [assignedVariable?, Line.codeTokens_bare, Line.index_bare]
      rfl
    rw [assignmentMismatch, hvariable]
    simp only [Analysis.declarationType_bare, Analysis.inferTokens_bare, Line.index_bare]
    rfl
  simp only [Analysis.document_bare, Analysis.table_bare, Document.lines_bare, collectFindings,
    List.mapM_map, Function.comp_def, hdeclared, hassigned]

/-! ### All rules -/

theorem ignoresComments_or_eq {r : Rule} (hr : r ∈ Rule.all) :
    r.IgnoresComments ∨ r = indentation := by
  simp only [Rule.all, List.mem_cons, List.not_mem_nil, or_false] at hr
  rcases hr with rfl | rfl | rfl | rfl | rfl | rfl | rfl | rfl | rfl | rfl | rfl | rfl | rfl |
    rfl | rfl | rfl | rfl | rfl | rfl | rfl | rfl | rfl | rfl | rfl | rfl
  · exact .inl ignoresComments_unterminatedString
  · exact .inl ignoresComments_unmatchedBrace
  · exact .inl ignoresComments_missingEnd
  · exact .inl ignoresComments_strayEnd
  · exact .inl ignoresComments_invalidFunctionHeader
  · exact .inl ignoresComments_classNaming
  · exact .inl ignoresComments_danglingMarker
  · exact .inl ignoresComments_multipleDeclarators
  · exact .inl ignoresComments_duplicateDeclaration
  · exact .inl ignoresComments_constReassignment
  · exact .inl ignoresComments_thisOutsideClass
  · exact .inl ignoresComments_returnOutsideFunction
  · exact .inl ignoresComments_breakOutsideLoop
  · exact .inl ignoresComments_untypedParameter
  · exact .inl ignoresComments_unusedImport
  · exact .inr rfl
  · exact .inl ignoresComments_unreachableCode
  · exact .inl ignoresComments_assignmentTypeMismatch
  · exact .inl ignoresComments_incompatibleComparison
  · exact .inl ignoresComments_divisionByZero
  · exact .inl ignoresComments_unknownMember
  · exact .inl ignoresComments_wordOperator
  · exact .inl ignoresComments_twoDotRange
  · exact .inl ignoresComments_dollarInterpolation
  · exact .inl ignoresComments_missedInterpolation

end Rule

/-! ### Reports -/

namespace Report

variable (a : Analysis) (settings : Settings)

theorem filter_foundBy_indentation (ctx : RuleContext) (memo : Memo) :
    (foundBy ctx [Rule.indentation] memo).filter (·.rule != "indentation") = [] := by
  rw [List.filter_eq_nil_iff]
  intro d hd
  obtain ⟨f, rfl⟩ := exists_finding hd
  simp [Rule.diagnostic, Rule.indentation, Rule.ofChecks]

/-- The rule on indentation asks for no types. -/
theorem memoAfter_indentation (ctx : RuleContext) (memo : Memo) :
    memoAfter ctx [Rule.indentation] memo = memo := by
  rw [memoAfter_singleton]
  split <;> rfl

/-- One rule finds the same without comments, up to indentation, and leaves the same memo. -/
theorem foundBy_singleton_bare {r : Rule} (hr : r ∈ Rule.all) (memo : Memo) :
    (foundBy ⟨a.bare, settings⟩ [r] memo).filter (·.rule != "indentation") =
        (foundBy ⟨a, settings⟩ [r] memo).filter (·.rule != "indentation") ∧
      memoAfter ⟨a.bare, settings⟩ [r] memo = memoAfter ⟨a, settings⟩ [r] memo := by
  rcases Rule.ignoresComments_or_eq hr with hignores | rfl
  · rw [foundBy_singleton, foundBy_singleton, memoAfter_singleton, memoAfter_singleton,
      hignores a settings]
    exact ⟨rfl, rfl⟩
  · rw [filter_foundBy_indentation, filter_foundBy_indentation, memoAfter_indentation,
      memoAfter_indentation]
    exact ⟨rfl, rfl⟩

/-- So do rules one after the other. -/
theorem foundBy_bare {rules : List Rule} (hrules : ∀ r ∈ rules, r ∈ Rule.all) (memo : Memo) :
    (foundBy ⟨a.bare, settings⟩ rules memo).filter (·.rule != "indentation") =
      (foundBy ⟨a, settings⟩ rules memo).filter (·.rule != "indentation") := by
  induction rules generalizing memo with
  | nil => rfl
  | cons r rules ih =>
      rw [List.forall_mem_cons] at hrules
      obtain ⟨hfound, hmemo⟩ := foundBy_singleton_bare a settings hrules.1 memo
      rw [foundBy_cons ⟨a.bare, settings⟩ r rules, foundBy_cons ⟨a, settings⟩ r rules,
        List.filter_append, List.filter_append, hfound, hmemo, ih hrules.2]

end Report

theorem Analysis.bare_ofText (text : List Char) (uri : Option String) (catalog : Catalog) :
    (ofText text uri catalog).bare =
      ofDocument ⟨(outsideComments text).mapIdx Line.ofShown, none⟩ catalog := by
  have hdoc := Document.bare_ofText text uri
  rw [← hdoc, ofDocument, ScopeTree.build_bare, DeclarationTable.collect_bare]
  rfl

/-- Comments do not interfere. If two texts show the same outside of comments, so that they have the
same number of lines, lines of the same lengths, comments at the same places, and the same
characters at all other places, then the reports on them are the same but for indentation. -/
theorem Analyzer.comments_do_not_interfere (z : Analyzer) (hmax : z.settings.maxDiagnostics = 0)
    (text text' : List Char) (uri uri' : Option String)
    (h : outsideComments text = outsideComments text') :
    (z.analyze text uri).diagnostics.filter (·.rule != "indentation") =
        (z.analyze text' uri').diagnostics.filter (·.rule != "indentation") ∧
      (z.analyze text uri).warnings = (z.analyze text' uri').warnings := by
  refine ⟨?_, by rw [warnings_analyze, warnings_analyze]⟩
  by_cases henabled : z.settings.enabled = true
  · have hbare : (z.prepare text uri).bare = (z.prepare text' uri').bare := by
      rw [prepare, prepare, Analysis.bare_ofText, Analysis.bare_ofText, h]
    have hfound := Report.foundBy_bare (z.prepare text uri) z.settings (fun r hr => hr) {}
    have hfound' := Report.foundBy_bare (z.prepare text' uri') z.settings (fun r hr => hr) {}
    rw [hbare, hfound'] at hfound
    rw [diagnostics_analyze henabled hmax, diagnostics_analyze henabled hmax]
    refine Report.filter_arrange_eq Report.nodup_codes_all
      (fun d hd => Report.isOf_of_mem_foundBy hd) ?_
    intro d hd
    have hmem : d ∈ List.filter _ _ ↔ d ∈ List.filter _ _ := iff_of_eq (congrArg (d ∈ ·) hfound)
    simpa only [List.mem_filter, hd, and_true] using hmem.symm
  · simp [analyze, henabled]

/-- A block comment over three lines, with words, quotes and brackets in it. In one of the texts its
second line is blank. -/
theorem Analyzer.comments_do_not_interfere_threeLines :
    let text := "var x = 1 / 0 /* \"a\n    \nend */ return // and".toList
    let text' := "var x = 1 / 0 /* (b\nthis\n/* \"*/ return // or!".toList
    let d : Diagnostic := ⟨⟨2, 7, 13⟩, "\"return\" statement outside of function", .error,
      "PF-E007", "return-outside-function"⟩
    outsideComments text = outsideComments text' ∧
      d ∈ (unresolving.analyze text none).diagnostics ∧
      (unresolving.analyze text none).diagnostics.filter (·.rule != "indentation") =
        (unresolving.analyze text' none).diagnostics.filter (·.rule != "indentation") ∧
      (unresolving.analyze text none).warnings = (unresolving.analyze text' none).warnings := by
  intro text text' d
  have h : outsideComments text = outsideComments text' := by decide +kernel
  have hd : d ∈ (unresolving.analyze text none).diagnostics := by
    rw [diagnostics_analyze rfl rfl, Report.mem_arrange]
    decide +kernel
  exact ⟨h, hd, unresolving.comments_do_not_interfere rfl text text' none none h⟩

end Polyloft
