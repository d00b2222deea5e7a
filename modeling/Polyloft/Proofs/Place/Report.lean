import Polyloft.Proofs.Analyzer
import Polyloft.Proofs.Place.Declaration
import Polyloft.Proofs.Rule.Brace
import Polyloft.Proofs.Rule.Direct

/-!
# Polyloft.Proofs.Place.Report

Every diagnostic points inside the document. A rule takes its places from tokens, from declared
names, from the code of whole lines or from offsets inside of string tokens; each of these is a
place on a line (`Polyloft.Proofs.Place.Token`, `Polyloft.Proofs.Place.Declaration`). Which types a
rule finds does not matter for where it points, so rules that infer types are followed only through
the results they return (`Infer.Ensures`).
-/

namespace Polyloft

open Polyloft.Text

/-! ### Documents -/

/-- The range is a place on a line of the document. -/
def Document.Covers (doc : Document) (r : Range) : Prop :=
  ∃ l ∈ doc.lines, l.Covers r

/-- An analysis in which tokens and declarations stand on their lines. -/
structure Analysis.Placed (a : Analysis) : Prop where
  fits : ∀ l ∈ a.document.lines, l.Fits
  table : a.table.Covered a.document

theorem Analysis.placed_ofText (text : List Char) (uri : Option String) (catalog : Catalog) :
    (ofText text uri catalog).Placed :=
  ⟨fun _ hl => Document.fits_of_mem hl, DeclarationTable.covered_collect _ _⟩

namespace Analysis.Placed

variable {a : Analysis} (h : a.Placed)
include h

theorem covers_token {l : Line} (hl : l ∈ a.document.lines) {t : Token} (ht : t ∈ l.codeTokens) :
    a.document.Covers t.range :=
  ⟨l, hl, (h.fits l hl).covers_range (Line.mem_tokens ht)⟩

theorem covers_codeToken {t : Token} (ht : t ∈ a.document.codeTokens) :
    a.document.Covers t.range := by
  obtain ⟨l, hl, ht⟩ := List.mem_flatMap.1 ht
  exact h.covers_token hl ht

theorem covers_declaration {d : Declaration} (hd : d ∈ a.table.declarations) :
    a.document.Covers d.range := by
  obtain ⟨l, hl, hstands⟩ := h.table.declarations d hd
  exact ⟨l, hl, hstands.1⟩

end Analysis.Placed

theorem Document.covers_codeRange {doc : Document} {l : Line} (hl : l ∈ doc.lines) :
    doc.Covers l.codeRange :=
  ⟨l, hl, l.covers_codeRange⟩

theorem Document.mem_of_lineAt {doc : Document} {n : Nat} {l : Line} (h : doc.lineAt n = .ok l) :
    l ∈ doc.lines := by
  unfold lineAt at h
  split at h
  · rename_i line hline
    obtain rfl := Except.ok.inj h
    exact List.mem_of_getElem? hline
  · simp at h

/-! ### Rules -/

namespace Rule

open Infer

/-- All findings of the rule are places in the document. -/
def Points (r : Rule) (ctx : RuleContext) : Prop :=
  Ensures (fun findings => ∀ f ∈ findings, ctx.analysis.document.Covers f.range) (r.check ctx)

theorem mem_of_mem_danglingIn {lines : List Line} {f : Finding} (h : f ∈ danglingIn lines) :
    ∃ l ∈ lines, ∃ t ∈ l.codeTokens, f.range = t.range := by
  induction lines with
  | nil => simp [danglingIn] at h
  | cons line later ih =>
      have hlater (h : f ∈ danglingIn later) :
          ∃ l ∈ line :: later, ∃ t ∈ l.codeTokens, f.range = t.range := by
        obtain ⟨l, hl, ht⟩ := ih h
        exact ⟨l, List.mem_cons_of_mem _ hl, ht⟩
      rw [danglingIn] at h
      split at h
      · exact hlater h
      · rename_i first rest htokens
        split at h
        · rcases List.mem_cons.1 h with rfl | h
          · exact ⟨line, List.mem_cons_self, first, by simp [htokens], rfl⟩
          · exact hlater h
        · exact hlater h

theorem mem_of_mem_duplicatesAfter {first ds : List Declaration} {f : Finding}
    (h : f ∈ duplicatesAfter first ds) : ∃ d ∈ ds, f.range = d.range := by
  fun_induction duplicatesAfter first ds with
  | case1 => simp at h
  | case2 first d ds hunique hnone ih =>
      obtain ⟨e, he, hrange⟩ := ih h
      exact ⟨e, List.mem_cons_of_mem _ he, hrange⟩
  | case3 first d ds hunique e hfound ih =>
      rcases List.mem_cons.1 h with rfl | h
      · exact ⟨d, List.mem_cons_self, rfl⟩
      · obtain ⟨e, he, hrange⟩ := ih h
        exact ⟨e, List.mem_cons_of_mem _ he, hrange⟩
  | case4 first d ds hunique ih =>
      obtain ⟨e, he, hrange⟩ := ih h
      exact ⟨e, List.mem_cons_of_mem _ he, hrange⟩

theorem name_mem_of_assignment? {tokens value : List Token} {name op : Token}
    (h : assignment? tokens = some (name, op, value)) : name ∈ tokens := by
  unfold assignment? at h
  split at h
  · split at h
    · obtain ⟨rfl, -⟩ := Prod.mk.inj (Option.some.inj h)
      exact List.mem_cons_self
    · simp at h
  · simp at h

theorem mem_of_mem_unreachableIn {a : Analysis} {lines : List Line} {f : Finding}
    (h : f ∈ unreachableIn a lines) : ∃ l ∈ lines, f.range = l.codeRange := by
  induction lines with
  | nil => simp [unreachableIn] at h
  | cons line later ih =>
      rcases List.mem_append.1 h with h | h
      · obtain ⟨word, -, h⟩ := Option.bind_eq_some_iff.1 (Option.mem_toList.1 h)
        obtain ⟨next, hnext, rfl⟩ := Option.map_eq_some_iff.1 h
        have hmem := List.mem_of_find?_eq_some (Option.filter_eq_some_iff.1 hnext).1
        exact ⟨next, List.mem_cons_of_mem _ hmem, rfl⟩
      · obtain ⟨l, hl, hrange⟩ := ih h
        exact ⟨l, List.mem_cons_of_mem _ hl, hrange⟩

theorem covers_of_mem_misindented {width depth : Int} {lines : List Line} {findings : List Finding}
    (h : misindented width depth lines = .ok findings) {f : Finding} (hf : f ∈ findings) :
    ∃ l ∈ lines, l.Covers f.range := by
  induction lines generalizing depth findings with
  | nil =>
      obtain rfl := Except.ok.inj h
      simp at hf
  | cons line later ih =>
      have hlater {findings : List Finding} (hf : f ∈ findings)
          (h : misindented width (depth + bracketBalance line.codeTokens) later = .ok findings) :
          ∃ l ∈ line :: later, l.Covers f.range := by
        obtain ⟨l, hl, hcovers⟩ := ih h hf
        exact ⟨l, List.mem_cons_of_mem _ hl, hcovers⟩
      rw [misindented] at h
      split at h
      · split at h
        · simp at h
        · split at h
          · obtain ⟨rest, hrest, h⟩ := exists_of_bind_eq_ok h
            obtain rfl := Except.ok.inj h
            rcases List.mem_cons.1 hf with rfl | hf
            · refine ⟨line, List.mem_cons_self, ?_⟩
              exact Line.covers_mk (Nat.zero_le _) (List.takeWhile_sublist _).length_le
            · exact hlater hf hrest
          · exact hlater hf h
      · exact hlater hf h

theorem stop_of_mem_dollarBraces {index n : Nat} {cs : List Char} (h : n ∈ dollarBraces index cs) :
    n + 2 ≤ index + cs.length := by
  induction cs generalizing index with
  | nil => simp [dollarBraces] at h
  | cons c cs ih =>
      rw [dollarBraces] at h
      rw [List.length_cons]
      split at h
      · rename_i hpair
        rcases List.mem_cons.1 h with rfl | h
        · cases cs with
          | nil => simp at hpair
          | cons d cs =>
              rw [List.length_cons]
              omega
        · have := ih h
          omega
      · have := ih h
        omega

theorem stop_of_bareHash? {index n : Nat} {cs : List Char} (h : bareHash? index cs = some n) :
    n + 1 ≤ index + cs.length := by
  induction cs generalizing index with
  | nil => simp [bareHash?] at h
  | cons c cs ih =>
      rw [bareHash?] at h
      rw [List.length_cons]
      split at h
      · obtain rfl := Option.some.inj h
        omega
      · have := ih h
        omega

/-! ### Rules that infer no types -/

theorem mem_documentSpots {doc : Document} {n : Nat} {s : Spot} (h : (n, s) ∈ documentSpots doc) :
    ∃ l ∈ doc.lines, n = l.index ∧ s ∈ spots l.codeTokens := by
  obtain ⟨l, hl, h⟩ := List.mem_flatMap.1 h
  obtain ⟨s', hs, heq⟩ := List.mem_map.1 h
  obtain ⟨rfl, rfl⟩ := Prod.mk.inj heq
  exact ⟨l, hl, rfl, hs⟩

section

variable {ctx : RuleContext} (h : ctx.analysis.Placed)
include h

theorem points_unterminatedString : unterminatedString.Points ctx := by
  refine .pure fun f hf => ?_
  obtain ⟨l, hl, hf⟩ := List.mem_filterMap.1 hf
  obtain ⟨t, ht, rfl⟩ := Option.map_eq_some_iff.1 hf
  have hstop := (h.fits l hl).stop_le t (List.mem_of_find?_eq_some ht)
  exact ⟨l, hl, Line.covers_mk (Nat.le_trans (Nat.le_add_right _ _) hstop) (Nat.le_refl _)⟩

theorem points_unmatchedBrace : unmatchedBrace.Points ctx := by
  refine .pure fun f hf => ?_
  obtain ⟨t, ht, rfl⟩ := List.mem_map.1 hf
  exact h.covers_codeToken (List.mem_filter.1 ((sublist_unmatchedBraces _).subset ht)).1

omit h in
theorem points_missingEnd : missingEnd.Points ctx := by
  refine .ofExcept fun findings hfindings f hf => ?_
  obtain ⟨frame, -, hf⟩ := exists_of_mem_mapM hfindings hf
  obtain ⟨line, hline, hf⟩ := exists_of_bind_eq_ok hf
  obtain rfl := Except.ok.inj hf
  exact Document.covers_codeRange (Document.mem_of_lineAt hline)

omit h in
theorem points_strayEnd : strayEnd.Points ctx := by
  refine .ofExcept fun findings hfindings f hf => ?_
  obtain ⟨index, -, hf⟩ := exists_of_mem_mapM hfindings hf
  obtain ⟨line, hline, hf⟩ := exists_of_bind_eq_ok hf
  obtain rfl := Except.ok.inj hf
  exact Document.covers_codeRange (Document.mem_of_lineAt hline)

theorem points_invalidFunctionHeader : invalidFunctionHeader.Points ctx := by
  refine .pure fun f hf => ?_
  obtain ⟨l, hl, hf⟩ := List.mem_filterMap.1 hf
  have hfits := h.fits l hl
  unfold malformedHeader? at hf
  split at hf
  · simp at hf
  · rename_i word rest hdrop
    dsimp only at hf
    split at hf
    · obtain rfl := Option.some.inj hf
      have hsuffix : word :: rest <:+ l.codeTokens := hdrop ▸ List.dropWhile_suffix _
      have hmem {t : Token} (ht : t ∈ word :: rest) : t ∈ l.tokens :=
        Line.mem_tokens (hsuffix.subset ht)
      refine ⟨l, hl, ?_⟩
      cases rest with
      | nil => exact hfits.covers_range (hmem List.mem_cons_self)
      | cons u rest =>
          have hordered := List.pairwise_cons.1 (hfits.pairwise_codeTokens.sublist hsuffix.sublist)
          have hle := hordered.1 u List.mem_cons_self
          refine hfits.covers_rangeTo (hmem List.mem_cons_self) (hmem (by simp)) ?_
          simp only [Token.stop] at hle ⊢
          simp only [List.headD_cons]
          omega
    · simp at hf

theorem points_classNaming : classNaming.Points ctx := by
  refine .pure fun f hf => ?_
  obtain ⟨d, hd, rfl⟩ := List.mem_map.1 hf
  exact h.covers_declaration (List.mem_filter.1 hd).1

theorem points_danglingMarker : danglingMarker.Points ctx := by
  refine .pure fun f hf => ?_
  obtain ⟨l, hl, t, ht, hrange⟩ := mem_of_mem_danglingIn hf
  rw [hrange]
  exact h.covers_token hl ht

theorem points_multipleDeclarators : multipleDeclarators.Points ctx := by
  refine .pure fun f hf => ?_
  obtain ⟨s, hs, rfl⟩ := List.mem_map.1 hf
  exact h.table.stacked s hs

theorem points_duplicateDeclaration : duplicateDeclaration.Points ctx := by
  refine .pure fun f hf => ?_
  obtain ⟨d, hd, hrange⟩ := mem_of_mem_duplicatesAfter hf
  rw [hrange]
  exact h.covers_declaration hd

theorem points_constReassignment : constReassignment.Points ctx := by
  refine .pure fun f hf => ?_
  obtain ⟨l, hl, hf⟩ := List.mem_filterMap.1 hf
  obtain ⟨⟨name, op, value⟩, hassign, hf⟩ := Option.bind_eq_some_iff.1 hf
  rw [Option.ite_none_right_eq_some] at hf
  obtain ⟨d, -, hf⟩ := Option.bind_eq_some_iff.1 hf.2
  split at hf
  · obtain rfl := Option.some.inj hf
    exact h.covers_token hl (name_mem_of_assignment? hassign)
  · simp at hf

/-- The rules about words that need a construct around them. -/
theorem covers_of_mem_misplaced {words : List String} {kind : BlockKind} {t : Token}
    (ht : t ∈ ctx.analysis.document.lines.filterMap (misplacedIn ctx.analysis words kind)) :
    ctx.analysis.document.Covers t.range := by
  obtain ⟨l, hl, ht⟩ := List.mem_filterMap.1 ht
  exact h.covers_token hl (List.mem_of_find?_eq_some (Option.filter_eq_some_iff.1 ht).1)

theorem points_thisOutsideClass : thisOutsideClass.Points ctx := by
  refine .pure fun f hf => ?_
  obtain ⟨t, ht, rfl⟩ := List.mem_map.1 hf
  exact covers_of_mem_misplaced h ht

theorem points_returnOutsideFunction : returnOutsideFunction.Points ctx := by
  refine .pure fun f hf => ?_
  obtain ⟨t, ht, rfl⟩ := List.mem_map.1 hf
  exact covers_of_mem_misplaced h ht

theorem points_breakOutsideLoop : breakOutsideLoop.Points ctx := by
  refine .pure fun f hf => ?_
  obtain ⟨t, ht, rfl⟩ := List.mem_map.1 hf
  exact covers_of_mem_misplaced h ht

theorem points_untypedParameter : untypedParameter.Points ctx := by
  refine .pure fun f hf => ?_
  obtain ⟨d, hd, hf⟩ := List.mem_flatMap.1 hf
  obtain ⟨p, hp, rfl⟩ := List.mem_map.1 hf
  obtain ⟨l, hl, hstands⟩ := h.table.declarations d (List.mem_filter.1 hd).1
  exact ⟨l, hl, hstands.2 p (List.mem_filter.1 hp).1⟩

theorem points_unusedImport : unusedImport.Points ctx := by
  refine .pure fun f hf => ?_
  obtain ⟨i, hi, hf⟩ := List.mem_flatMap.1 hf
  obtain ⟨s, hs, rfl⟩ := List.mem_map.1 hf
  exact h.table.imports i hi s (List.mem_filter.1 hs).1

omit h in
theorem points_indentation : indentation.Points ctx :=
  .ofExcept fun _ hfindings _ hf => covers_of_mem_misindented hfindings hf

omit h in
theorem points_unreachableCode : unreachableCode.Points ctx := by
  refine .pure fun f hf => ?_
  obtain ⟨l, hl, hrange⟩ := mem_of_mem_unreachableIn hf
  rw [hrange]
  exact Document.covers_codeRange hl

omit h in
theorem covers_of_zeroDivision? {l : Line} (hfits : l.Fits) {s : Spot} (hs : s ∈ spots l.codeTokens)
    {f : Finding} (hf : zeroDivision? s = .ok (some f)) : l.Covers f.range := by
  unfold zeroDivision? at hf
  split at hf
  · simp at hf
  · rename_i operand hnext
    split at hf
    · obtain ⟨isZero, -, hf⟩ := exists_of_bind_eq_ok hf
      split at hf
      · obtain rfl := Option.some.inj (Except.ok.inj hf)
        exact hfits.covers_token_next hs hnext
      · exact absurd (Except.ok.inj hf) (by simp)
    · simp at hf

theorem points_divisionByZero : divisionByZero.Points ctx := by
  refine .ofExcept fun findings hfindings f hf => ?_
  obtain ⟨found, hfound, hfindings⟩ := exists_of_bind_eq_ok hfindings
  obtain rfl := Except.ok.inj hfindings
  obtain ⟨_, hf, rfl⟩ := List.mem_filterMap.1 hf
  obtain ⟨⟨index, s⟩, hs, hf⟩ := exists_of_mem_mapM hfound hf
  obtain ⟨l, hl, -, hs⟩ := mem_documentSpots hs
  exact ⟨l, hl, covers_of_zeroDivision? (h.fits l hl) hs hf⟩

theorem points_wordOperator : wordOperator.Points ctx := by
  refine .pure fun f hf => ?_
  obtain ⟨l, hl, hf⟩ := List.mem_flatMap.1 hf
  obtain ⟨s, hs, hf⟩ := List.mem_filterMap.1 hf
  obtain ⟨operator, -, hf⟩ := Option.bind_eq_some_iff.1 hf
  split at hf
  · obtain rfl := Option.some.inj hf
    exact ⟨l, hl, (h.fits l hl).covers_token hs⟩
  · simp at hf

theorem points_twoDotRange : twoDotRange.Points ctx := by
  refine .pure fun f hf => ?_
  obtain ⟨t, ht, rfl⟩ := List.mem_map.1 hf
  exact h.covers_codeToken (List.mem_filter.1 ht).1

/-- A part of a token, given by columns, is a place too. -/
theorem covers_in_token {t : Token} (ht : t ∈ ctx.analysis.document.codeTokens) {start stop : Nat}
    (hle : start ≤ stop) (hstop : stop ≤ t.stop) :
    ctx.analysis.document.Covers ⟨t.line, start, stop⟩ := by
  obtain ⟨l, hl, ht⟩ := List.mem_flatMap.1 ht
  have ht := Line.mem_tokens ht
  have hfits := h.fits l hl
  rw [hfits.line_eq t ht]
  exact ⟨l, hl, Line.covers_mk hle (Nat.le_trans hstop (hfits.stop_le t ht))⟩

theorem points_dollarInterpolation : dollarInterpolation.Points ctx := by
  refine .pure fun f hf => ?_
  obtain ⟨t, ht, hf⟩ := List.mem_flatMap.1 hf
  obtain ⟨start, hstart, rfl⟩ := List.mem_map.1 hf
  refine covers_in_token h (List.mem_filter.1 ht).1 (Nat.le_add_right start 2) ?_
  exact stop_of_mem_dollarBraces hstart

theorem points_missedInterpolation : missedInterpolation.Points ctx := by
  refine .pure fun f hf => ?_
  obtain ⟨t, ht, hf⟩ := List.mem_filterMap.1 hf
  obtain ⟨start, hstart, rfl⟩ := Option.map_eq_some_iff.1 hf
  refine covers_in_token h (List.mem_filter.1 ht).1 (Nat.le_add_right start 1) ?_
  exact stop_of_bareHash? hstart

end

/-! ### Rules that infer types -/

theorem ensures_collectFindings {α : Type} {P : Finding → Prop} {check : α → Infer (Option Finding)}
    {items : List α} (h : ∀ x ∈ items, Ensures (fun found => ∀ f ∈ found, P f) (check x)) :
    Ensures (fun findings => ∀ f ∈ findings, P f) (collectFindings check items) := by
  refine .bind (.mapM h) fun found hfound => .pure ?_
  intro f hf
  obtain ⟨_, hmem, rfl⟩ := List.mem_filterMap.1 hf
  exact hfound _ hmem f rfl

theorem neighbours_of_accessedMember? {s : Spot} {receiver member : Token}
    (h : accessedMember? s = some (receiver, member)) :
    s.previous? = some receiver ∧ s.next? = some member := by
  unfold accessedMember? at h
  split at h
  · rename_i previous next hprevious hnext
    split at h
    · obtain ⟨rfl, rfl⟩ := Prod.mk.inj (Option.some.inj h)
      exact ⟨hprevious, hnext⟩
    · simp at h
  · simp at h

/-- What the rule for unknown members finds at a spot, it finds at the member accessed there. -/
theorem ensures_range_unknownMemberAt {a : Analysis} (n : Nat) (s : Spot) :
    Ensures (fun found => ∀ f ∈ found, ∃ receiver member,
      accessedMember? s = some (receiver, member) ∧ f.range = member.range)
      (unknownMemberAt a n s) := by
  unfold unknownMemberAt
  split
  · exact .pure (by simp)
  · rename_i receiver member haccessed
    split
    · split
      · refine .pure ?_
        unfold unknownPackageMember?
        split
        · rintro f ⟨⟩
          exact ⟨receiver, member, haccessed, rfl⟩
        · simp
      · exact .pure (by simp)
    · split
      · refine .bind (.trivial _) fun type _ => .pure ?_
        unfold unknownMethod?
        split
        · split
          · rintro f ⟨⟩
            exact ⟨receiver, member, haccessed, rfl⟩
          · simp
        · simp
      · exact .pure (by simp)

section

variable {ctx : RuleContext} (h : ctx.analysis.Placed)
include h

theorem ensures_initializerMismatch {d : Declaration}
    (hd : d ∈ ctx.analysis.table.declarations) :
    Ensures (fun found => ∀ f ∈ found, ctx.analysis.document.Covers f.range)
      (initializerMismatch ctx.analysis d) := by
  unfold initializerMismatch
  split
  · split
    · exact .pure (by simp)
    · refine .bind (.trivial _) fun source _ => ?_
      split
      · exact .pure (by simp)
      · refine .pure ?_
        rintro f ⟨⟩
        exact h.covers_declaration hd
  · exact .pure (by simp)

theorem ensures_assignmentMismatch {l : Line} (hl : l ∈ ctx.analysis.document.lines) :
    Ensures (fun found => ∀ f ∈ found, ctx.analysis.document.Covers f.range)
      (assignmentMismatch ctx.analysis l) := by
  unfold assignmentMismatch
  split
  · exact .pure (by simp)
  · rename_i d name value hassigned
    have hname : name ∈ l.codeTokens := by
      obtain ⟨⟨name', op, value'⟩, hassign, hassigned⟩ := Option.bind_eq_some_iff.1 hassigned
      dsimp only at hassigned
      split at hassigned
      · obtain ⟨e, -, heq⟩ := Option.map_eq_some_iff.1 hassigned
        obtain ⟨-, heq⟩ := Prod.mk.inj heq
        obtain ⟨rfl, rfl⟩ := Prod.mk.inj heq
        exact name_mem_of_assignment? hassign
      · simp at hassigned
    refine .bind (.trivial _) fun target _ => ?_
    split
    · exact .pure (by simp)
    · refine .bind (.trivial _) fun source _ => ?_
      split
      · exact .pure (by simp)
      · refine .pure ?_
        rintro f ⟨⟩
        exact h.covers_token hl hname

theorem points_assignmentTypeMismatch : assignmentTypeMismatch.Points ctx := by
  have hdeclared := ensures_collectFindings fun d hd => ensures_initializerMismatch h hd
  have hassigned := ensures_collectFindings fun l hl => ensures_assignmentMismatch h hl
  refine .bind hdeclared fun declared hdeclared => .bind hassigned fun assigned hassigned =>
    .pure fun f hf => ?_
  rcases List.mem_append.1 hf with hf | hf
  · exact hdeclared f hf
  · exact hassigned f hf

theorem ensures_comparisonMismatch {l : Line} (hl : l ∈ ctx.analysis.document.lines) {s : Spot}
    (hs : s ∈ spots l.codeTokens) :
    Ensures (fun found => ∀ f ∈ found, ctx.analysis.document.Covers f.range)
      (comparisonMismatch ctx.analysis l.index s) := by
  unfold comparisonMismatch
  split
  · exact .pure (by simp)
  · rename_i left right hcompared
    have hneighbours : s.previous? = some left ∧ s.next? = some right := by
      unfold comparedNames? at hcompared
      split at hcompared
      · rename_i previous next hprevious hnext
        split at hcompared
        · obtain ⟨rfl, rfl⟩ := Prod.mk.inj (Option.some.inj hcompared)
          exact ⟨hprevious, hnext⟩
        · simp at hcompared
      · simp at hcompared
    split
    · refine .bind (.trivial _) fun lt _ => .bind (.trivial _) fun rt _ => ?_
      split
      · exact .pure (by simp)
      · refine .pure ?_
        rintro f ⟨⟩
        exact ⟨l, hl, (h.fits l hl).covers_previous_next hs hneighbours.1 hneighbours.2⟩
    · exact .pure (by simp)

theorem points_incompatibleComparison : incompatibleComparison.Points ctx := by
  refine ensures_collectFindings ?_
  rintro ⟨n, s⟩ hmem
  obtain ⟨l, hl, rfl, hs⟩ := mem_documentSpots hmem
  exact ensures_comparisonMismatch h hl hs

theorem ensures_unknownMemberAt {l : Line} (hl : l ∈ ctx.analysis.document.lines) {s : Spot}
    (hs : s ∈ spots l.codeTokens) :
    Ensures (fun found => ∀ f ∈ found, ctx.analysis.document.Covers f.range)
      (unknownMemberAt ctx.analysis l.index s) := by
  refine (ensures_range_unknownMemberAt l.index s).mono fun found hfound f hf => ?_
  obtain ⟨receiver, member, haccessed, hrange⟩ := hfound f hf
  rw [hrange]
  exact ⟨l, hl, (h.fits l hl).covers_next hs (neighbours_of_accessedMember? haccessed).2⟩

theorem points_unknownMember : unknownMember.Points ctx := by
  refine ensures_collectFindings ?_
  rintro ⟨n, s⟩ hmem
  obtain ⟨l, hl, rfl, hs⟩ := mem_documentSpots hmem
  exact ensures_unknownMemberAt h hl hs

/-- Every rule points inside the document. -/
theorem points_of_mem {r : Rule} (hr : r ∈ Rule.all) : r.Points ctx := by
  simp only [Rule.all, List.mem_cons, List.not_mem_nil, or_false] at hr
  rcases hr with rfl | rfl | rfl | rfl | rfl | rfl | rfl | rfl | rfl | rfl | rfl | rfl | rfl |
    rfl | rfl | rfl | rfl | rfl | rfl | rfl | rfl | rfl | rfl | rfl | rfl
  · exact points_unterminatedString h
  · exact points_unmatchedBrace h
  · exact points_missingEnd
  · exact points_strayEnd
  · exact points_invalidFunctionHeader h
  · exact points_classNaming h
  · exact points_danglingMarker h
  · exact points_multipleDeclarators h
  · exact points_duplicateDeclaration h
  · exact points_constReassignment h
  · exact points_thisOutsideClass h
  · exact points_returnOutsideFunction h
  · exact points_breakOutsideLoop h
  · exact points_untypedParameter h
  · exact points_unusedImport h
  · exact points_indentation
  · exact points_unreachableCode
  · exact points_assignmentTypeMismatch h
  · exact points_incompatibleComparison h
  · exact points_divisionByZero h
  · exact points_unknownMember h
  · exact points_wordOperator h
  · exact points_twoDotRange h
  · exact points_dollarInterpolation h
  · exact points_missedInterpolation h

end

end Rule

/-! ### Reports -/

theorem Report.mem_of_mem_cap {limit : Int} {ds : List Diagnostic} {d : Diagnostic}
    (h : d ∈ cap limit ds) : d ∈ ds := by
  unfold cap at h
  split at h
  · exact h
  · split at h
    · exact List.mem_of_mem_take h
    · exact List.mem_of_mem_take h

theorem Report.covers_of_mem_foundBy {ctx : RuleContext} (h : ctx.analysis.Placed)
    {rules : List Rule} (hrules : ∀ r ∈ rules, r ∈ Rule.all) {memo : Memo} {d : Diagnostic}
    (hd : d ∈ foundBy ctx rules memo) : ctx.analysis.document.Covers d.range := by
  obtain ⟨before, r, after, rfl, hr⟩ := mem_foundBy_iff.1 hd
  rw [foundBy_singleton] at hr
  split at hr
  · split at hr
    · rename_i findings hfindings
      obtain ⟨f, hf, rfl⟩ := List.mem_map.1 hr
      exact Rule.points_of_mem h (hrules r (by simp)) _ _ _ (Prod.ext hfindings rfl) f hf
    · simp at hr
  · simp at hr

theorem Document.exists_text_of_covers {text : List Char} {uri : Option String} {r : Range}
    (h : (ofText text uri).Covers r) :
    ∃ (n : Nat) (raw : List Char), (linesOf text)[n]? = some raw ∧ r.line = n ∧ 0 ≤ r.start ∧
      r.start ≤ r.stop ∧ r.stop ≤ raw.length := by
  obtain ⟨l, hl, hcovers⟩ := h
  obtain ⟨n, hn⟩ := List.getElem?_of_mem hl
  have hindex := (isNumbered_ofText text uri).index_eq hn
  refine ⟨n, l.text, ?_, by rw [hcovers.line_eq, hindex], hcovers.nonneg, hcovers.start_le,
    hcovers.stop_le⟩
  rw [← map_text_linesFrom 0 false (linesOf text), ← lines_ofText text uri, List.getElem?_map, hn]
  rfl

/-- Every diagnostic points inside the document: its line is a line of the text, and its columns
start and stop, in this order, inside the raw text of that line. This holds for all rules and all
settings, wherever the columns come from. -/
theorem Analyzer.diagnostics_point_inside (z : Analyzer) (text : List Char) (uri : Option String) :
    ∀ d ∈ (z.analyze text uri).diagnostics,
      ∃ (n : Nat) (raw : List Char), (linesOf text)[n]? = some raw ∧ d.range.line = n ∧
        0 ≤ d.range.start ∧ d.range.start ≤ d.range.stop ∧ d.range.stop ≤ raw.length := by
  intro d hd
  have hplaced : (⟨z.prepare text uri, z.settings⟩ : RuleContext).analysis.Placed :=
    Analysis.placed_ofText text uri z.catalog
  unfold analyze at hd
  split at hd
  · have hd := Report.mem_arrange.1 (Report.mem_of_mem_cap hd)
    exact Document.exists_text_of_covers
      (Report.covers_of_mem_foundBy hplaced (fun r hr => hr) hd)
  · simp at hd

/-- A header whose parenthesis is never closed. Its second parameter is variadic and malformed, and
only its name, which is taken already, can be made out. -/
theorem Analyzer.diagnostics_point_inside_openHeader :
    let text := "import a.b \x7b x as yy \x7d\ndef f(a, ...a??:".toList
    let d : Diagnostic := ⟨⟨1, 12, 13⟩, "Variable 'a' is already declared in this scope (line 2)",
      .error, "PF-E004", "duplicate-declaration"⟩
    d ∈ (unresolving.analyze text none).diagnostics ∧
      ∃ (n : Nat) (raw : List Char), (linesOf text)[n]? = some raw ∧ d.range.line = n ∧
        0 ≤ d.range.start ∧ d.range.start ≤ d.range.stop ∧ d.range.stop ≤ raw.length := by
  intro text d
  have hd : d ∈ (unresolving.analyze text none).diagnostics := by
    rw [diagnostics_analyze rfl rfl, Report.mem_arrange]
    decide +kernel
  exact ⟨hd, diagnostics_point_inside unresolving text none d hd⟩

end Polyloft
