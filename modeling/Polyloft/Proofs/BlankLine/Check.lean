import Polyloft.Proofs.BlankLine.Typing

/-!
# Polyloft.Proofs.BlankLine.Check

Every rule finds in a document with one more, empty line what it finds in the document, moved
(`Rule.findsSame_of_mem`). Two rules quote the line of a declaration in their messages, and there
the messages are renumbered too (`Requoted`). Each rule has its lemma; the lemmas stand in the order
of the modules that define the rules.
-/

namespace Polyloft

open Infer

namespace Rule

variable {k : Nat}

/-! ### Findings and rules -/

/-- A message that ends in the number of a line, and the same message with the number that the line
becomes. People count lines from one. -/
inductive Requoted (k : Nat) : String → String → Prop
  | mk (before : String) (n : Nat) :
      Requoted k (before ++ "line " ++ toString (n + 1) ++ ")")
        (before ++ "line " ++ toString (movedLine k n + 1) ++ ")")

theorem Requoted.of_append (before words : String) (n : Nat) :
    Requoted k (before ++ (words ++ "line ") ++ toString (n + 1) ++ ")")
      (before ++ (words ++ "line ") ++ toString (movedLine k n + 1) ++ ")") := by
  rw [← String.append_assoc]
  exact .mk (before ++ words) n

/-- Does a rule put the number of a line into its messages? The code tells. -/
def quotesLine (code : String) : Bool :=
  code == "PF-E004" || code == "PF-E005"

/-- The finding and what becomes of it; a line that is quoted moves too. -/
structure RelatedFinding (k : Nat) (quotes : Bool) (f f' : Finding) : Prop where
  range : f'.range = f.range.moved k
  message : if quotes then Requoted k f.message f'.message else f'.message = f.message

/-- The findings of a rule with a given code, and what becomes of them. -/
def RelatedFindings (k : Nat) (code : String) : List Finding → List Finding → Prop :=
  List.Forall₂ (RelatedFinding k (quotesLine code))

theorem MovedFindings.related {code : String} (hcode : quotesLine code = false)
    {findings findings' : List Finding} (h : MovedFindings k findings findings') :
    RelatedFindings k code findings findings' := by
  rw [h, RelatedFindings, hcode, List.forall₂_map_right_iff, List.forall₂_same]
  intro f _
  exact ⟨rfl, rfl⟩

/-- The rule finds the same in the second document. -/
def FindsSame (k : Nat) (a a' : Analysis) (settings : Settings) (r : Rule) : Prop :=
  Renumbers k (RelatedFindings k r.code) (r.check ⟨a, settings⟩) (r.check ⟨a', settings⟩)

section

variable {a a' : Analysis} {settings : Settings} {name code description : String}
  {severity : Severity}

theorem findsSame_ofFindings {findings : Analysis → List Finding} (hcode : quotesLine code = false)
    (h : findings a' = (findings a).map (Finding.moved k)) :
    FindsSame k a a' settings (ofFindings name code severity description findings) :=
  .pure (MovedFindings.related hcode h)

theorem findsSame_ofChecks {findings : RuleContext → Except Fault (List Finding)}
    (hcode : quotesLine code = false)
    (h : findings ⟨a', settings⟩ =
      (findings ⟨a, settings⟩).map (List.map (Finding.moved k)))
    (hok : Returns (fun _ => True)
      ((ofChecks name code severity description findings).check ⟨a, settings⟩)) :
    FindsSame k a a' settings (ofChecks name code severity description findings) := by
  intro memo hmemo
  obtain ⟨found, memo', hafter, -, hmemo'⟩ := hok memo hmemo
  obtain ⟨hfound, rfl⟩ := Prod.mk.inj hafter
  refine ⟨found, found.map (Finding.moved k), memo, hafter, ?_, MovedFindings.related hcode rfl,
    hmemo'⟩
  show (findings ⟨a', settings⟩, memo.moved k) = _
  rw [h, hfound]
  rfl

theorem findsSame_ofInference {findings : Analysis → Infer (List Finding)}
    (hcode : quotesLine code = false)
    (h : Renumbers k (MovedFindings k) (findings a) (findings a')) :
    FindsSame k a a' settings (ofInference name code severity description findings) := by
  intro memo hmemo
  obtain ⟨t, u, memo', hx, hy, htu, hmemo'⟩ := h memo hmemo
  exact ⟨t, u, memo', hx, hy, MovedFindings.related hcode htu, hmemo'⟩

end

section

variable {a a' : Analysis} {settings : Settings} (h : a.Moved k a')
include h

/-! ### The shape of the text -/

theorem findsSame_unterminatedString : FindsSame k a a' settings unterminatedString :=
  findsSame_ofFindings rfl
    (h.document.spread.filterMap (fun l _ => unterminatedIn_moved l) fun _ => rfl)

theorem findsSame_unmatchedBrace : FindsSame k a a' settings unmatchedBrace := by
  refine findsSame_ofFindings rfl ?_
  have hbraces := unmatchedBracesFrom_moved (k := k) [] a.document.codeTokens
  rw [List.map_nil] at hbraces
  rw [unmatchedBraces, h.document.codeTokens, hbraces]
  exact map_range_moved _ _ fun _ => rfl

theorem findsSame_missingEnd (ha : a.IsRead) : FindsSame k a a' settings missingEnd := by
  have hreturns : Returns (fun _ => True) (missingEnd.check ⟨a, settings⟩) := returns_missingEnd ha
  refine findsSame_ofChecks rfl (mapM_moved ?_) hreturns
  refine (forall₂_unclosed h ha).imp fun f f' hf => ?_
  rw [hf.2]
  exact lineFinding_moved h.document hf.1 _

theorem findsSame_strayEnd (ha : a.IsRead) : FindsSame k a a' settings strayEnd := by
  have hreturns : Returns (fun _ => True) (strayEnd.check ⟨a, settings⟩) := returns_strayEnd ha
  refine findsSame_ofChecks rfl (mapM_moved ?_) hreturns
  rw [h.tree.stray, List.forall₂_map_right_iff, List.forall₂_same]
  exact fun n hn => lineFinding_moved h.document (ha.stray_lt hn) _

theorem findsSame_invalidFunctionHeader : FindsSame k a a' settings invalidFunctionHeader := by
  refine findsSame_ofFindings rfl (h.document.spread.filterMap (fun l _ => ?_) fun _ => rfl)
  rw [Line.codeTokens_moved, malformedHeader?_moved]

/-! ### Declarations -/

theorem findsSame_classNaming : FindsSame k a a' settings classNaming := by
  refine findsSame_ofFindings rfl ?_
  dsimp only
  rw [h.table, DeclarationTable.filter_moved k _ _ fun _ => rfl, List.map_map, List.map_map]
  exact List.map_congr_left fun d _ => congrArg (Finding.mk · _) (d.range_moved k)

theorem findsSame_danglingMarker : FindsSame k a a' settings danglingMarker :=
  findsSame_ofFindings rfl (danglingIn_moved h.document.spread)

theorem findsSame_multipleDeclarators : FindsSame k a a' settings multipleDeclarators := by
  refine findsSame_ofFindings rfl ?_
  rw [h.table, DeclarationTable.moved, List.map_map, List.map_map]
  exact List.map_congr_left fun s _ => congrArg (Finding.mk · _) (Range.moved_mk k _ _ _).symm

/-- The first declaration of the variable, whose line is quoted, moves. -/
theorem findsSame_duplicateDeclaration : FindsSame k a a' settings duplicateDeclaration := by
  refine .pure ?_
  have hmoved := redeclared_moved (k := k) [] a.table.declarations
  rw [List.map_nil] at hmoved
  dsimp only
  rw [duplicatesAfter_eq, duplicatesAfter_eq, h.table, DeclarationTable.moved, hmoved,
    List.map_map, RelatedFindings, List.forall₂_map_left_iff, List.forall₂_map_right_iff,
    List.forall₂_same]
  intro p _
  refine ⟨Declaration.range_moved k p.1, ?_⟩
  exact .of_append ("Variable '" ++ p.1.name) "' is already declared in this scope (" p.2.line

/-- The declaration of the constant, whose line is quoted, moves. -/
theorem findsSame_constReassignment : FindsSame k a a' settings constReassignment := by
  refine .pure ?_
  have heq (a : Analysis) : a.document.lines.filterMap (reassignmentIn a) =
      (a.document.lines.filterMap (reassigned? a)).map reassignment := by
    rw [List.map_filterMap]
    exact congrArg (List.filterMap · _) (funext fun line => reassignmentIn_eq a line)
  have hmoved := h.document.spread.filterMap (fun l _ => reassigned?_moved h l) fun _ => rfl
  dsimp only
  rw [heq, heq, hmoved, List.map_map, RelatedFindings, List.forall₂_map_left_iff,
    List.forall₂_map_right_iff, List.forall₂_same]
  intro p _
  refine ⟨Token.range_moved k p.1, ?_⟩
  exact .of_append ("Cannot reassign " ++
    (if p.2.form == .variable .const then "const" else "final") ++ " variable '" ++ p.1.text)
    "' (declared on " p.2.line

theorem findsSame_untypedParameter : FindsSame k a a' settings untypedParameter := by
  refine findsSame_ofFindings rfl ?_
  rw [h.table, DeclarationTable.filter_moved k _ _ fun _ => rfl, List.flatMap_map,
    List.map_flatMap]
  exact congrArg (List.flatMap · _) (funext fun d => untypedIn_moved d)

theorem findsSame_unusedImport : FindsSame k a a' settings unusedImport := by
  refine findsSame_ofFindings rfl ?_
  rw [h.table, DeclarationTable.moved, List.flatMap_map, List.map_flatMap]
  exact congrArg (List.flatMap · _) (funext fun i => unusedIn_moved h.document i)

/-! ### Statements -/

theorem findsSame_thisOutsideClass : FindsSame k a a' settings thisOutsideClass :=
  findsSame_ofFindings rfl (misplaced_moved h _ _ _ fun _ => rfl)

theorem findsSame_returnOutsideFunction : FindsSame k a a' settings returnOutsideFunction :=
  findsSame_ofFindings rfl (misplaced_moved h _ _ _ fun _ => rfl)

theorem findsSame_breakOutsideLoop : FindsSame k a a' settings breakOutsideLoop :=
  findsSame_ofFindings rfl (misplaced_moved h _ _ _ fun _ => rfl)

theorem findsSame_unreachableCode : FindsSame k a a' settings unreachableCode :=
  findsSame_ofFindings rfl (unreachableIn_moved h h.document.spread)

theorem findsSame_indentation (hwidth : 0 < settings.indentWidth) :
    FindsSame k a a' settings indentation := by
  have hreturns : Returns (fun _ => True) (indentation.check ⟨a, settings⟩) :=
    returns_indentation hwidth
  exact findsSame_ofChecks rfl (misindented_moved _ _ h.document.spread) hreturns

/-! ### Types -/

theorem findsSame_assignmentTypeMismatch (ha : a.IsRead) (ha' : a'.IsRead) :
    FindsSame k a a' settings assignmentTypeMismatch := by
  refine findsSame_ofInference rfl ?_
  rw [h.table, DeclarationTable.moved]
  refine .bind (renumbers_collectFindings_map _
    fun d _ => renumbers_initializerMismatch h ha ha' d) ?_
  rintro declared _ rfl
  refine .bind (renumbers_collectFindings_spread h.document.spread
    (renumbers_assignmentMismatch h ha ha') fun _ => rfl) ?_
  rintro assigned _ rfl
  exact .pure List.map_append.symm

theorem findsSame_incompatibleComparison (ha : a.IsRead) (ha' : a'.IsRead) :
    FindsSame k a a' settings incompatibleComparison := by
  refine findsSame_ofInference rfl ?_
  rw [documentSpots_moved h.document]
  exact renumbers_collectFindings_map _
    fun p _ => renumbers_comparisonMismatch h ha ha' p.1 p.2

theorem findsSame_divisionByZero (ha : a.IsRead) :
    FindsSame k a a' settings divisionByZero := by
  have hreturns : Returns (fun _ => True) (divisionByZero.check ⟨a, settings⟩) :=
    returns_divisionByZero ha
  exact findsSame_ofChecks rfl (zeroDivisions_moved h.document) hreturns

theorem findsSame_unknownMember (ha : a.IsRead) (ha' : a'.IsRead) :
    FindsSame k a a' settings unknownMember := by
  refine findsSame_ofInference rfl ?_
  rw [documentSpots_moved h.document]
  exact renumbers_collectFindings_map _
    fun p _ => renumbers_unknownMemberAt h ha ha' p.1 p.2

/-! ### Spelling -/

theorem findsSame_wordOperator : FindsSame k a a' settings wordOperator := by
  refine findsSame_ofFindings rfl (h.document.spread.flatMap (fun l _ => ?_) fun _ => rfl)
  rw [Line.codeTokens_moved, spots_moved, List.filterMap_map, List.map_filterMap]
  exact congrArg (List.filterMap · _) (funext fun s => wordOperatorAt?_moved s)

theorem findsSame_twoDotRange : FindsSame k a a' settings twoDotRange := by
  refine findsSame_ofFindings rfl ?_
  rw [h.document.codeTokens, List.filter_map]
  exact map_range_moved _ _ fun _ => rfl

theorem findsSame_dollarInterpolation : FindsSame k a a' settings dollarInterpolation := by
  refine findsSame_ofFindings rfl ?_
  rw [stringTokens_moved h.document, List.flatMap_map, List.map_flatMap]
  refine congrArg (List.flatMap · _) (funext fun t => ?_)
  rw [List.map_map]
  exact List.map_congr_left fun n _ => congrArg (Finding.mk · _) (Range.moved_mk k _ _ _).symm

theorem findsSame_missedInterpolation : FindsSame k a a' settings missedInterpolation := by
  refine findsSame_ofFindings rfl ?_
  rw [stringTokens_moved h.document, List.filterMap_map, List.map_filterMap]
  refine congrArg (List.filterMap · _) (funext fun t => ?_)
  rw [Option.map_map]
  exact congrArg (Option.map · _) (funext fun n =>
    congrArg (Finding.mk · _) (Range.moved_mk k _ _ _).symm)

/-! ### All rules -/

/-- Every rule finds the same in a document with one more, empty line. -/
theorem findsSame_of_mem (ha : a.IsRead) (ha' : a'.IsRead) (hwidth : 0 < settings.indentWidth)
    {r : Rule} (hr : r ∈ Rule.all) : FindsSame k a a' settings r := by
  simp only [Rule.all, List.mem_cons, List.not_mem_nil, or_false] at hr
  rcases hr with rfl | rfl | rfl | rfl | rfl | rfl | rfl | rfl | rfl | rfl | rfl | rfl | rfl |
    rfl | rfl | rfl | rfl | rfl | rfl | rfl | rfl | rfl | rfl | rfl | rfl
  · exact findsSame_unterminatedString h
  · exact findsSame_unmatchedBrace h
  · exact findsSame_missingEnd h ha
  · exact findsSame_strayEnd h ha
  · exact findsSame_invalidFunctionHeader h
  · exact findsSame_classNaming h
  · exact findsSame_danglingMarker h
  · exact findsSame_multipleDeclarators h
  · exact findsSame_duplicateDeclaration h
  · exact findsSame_constReassignment h
  · exact findsSame_thisOutsideClass h
  · exact findsSame_returnOutsideFunction h
  · exact findsSame_breakOutsideLoop h
  · exact findsSame_untypedParameter h
  · exact findsSame_unusedImport h
  · exact findsSame_indentation h hwidth
  · exact findsSame_unreachableCode h
  · exact findsSame_assignmentTypeMismatch h ha ha'
  · exact findsSame_incompatibleComparison h ha ha'
  · exact findsSame_divisionByZero h ha
  · exact findsSame_unknownMember h ha ha'
  · exact findsSame_wordOperator h
  · exact findsSame_twoDotRange h
  · exact findsSame_dollarInterpolation h
  · exact findsSame_missedInterpolation h

end

end Rule

end Polyloft
