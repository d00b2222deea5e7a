import Polyloft.Proofs.Analyzer
import Polyloft.Proofs.BlankLine.Check
import Polyloft.Proofs.Declaration.Column
import Polyloft.Proofs.Rule.Independent

/-!
# Polyloft.Proofs.BlankLine.Report

The report on a text with one more, empty line: the same diagnostics in the same order, moved
(`Analyzer.blank_line_renumbers`).

## Proof shape

Rules run one after the other find related diagnostics (`forall₂_foundBy`). What is left is that
putting them in order and leaving out repetitions does the same to both lists. Diagnostics are
compared by place and code first, which move along; the messages differ only where a line is quoted,
and there place and code tell the message (`message_eq_of_place_eq`): a variable stands at a place,
and its first declaration is one; a line assigns to one name only. So messages are never what
decides.
-/

namespace Polyloft

open Infer Rule

/-! ### Diagnostics -/

/-- The diagnostic and what becomes of it when an empty line is put before line `k`. -/
structure Diagnostic.Moved (k : Nat) (d d' : Diagnostic) : Prop where
  range : d'.range = d.range.moved k
  message : if quotesLine d.code then Requoted k d.message d'.message else d'.message = d.message
  severity : d'.severity = d.severity
  code : d'.code = d.code
  rule : d'.rule = d.rule

theorem Rule.moved_diagnostic {k : Nat} {r : Rule} {f f' : Finding}
    (h : RelatedFinding k (quotesLine r.code) f f') :
    Diagnostic.Moved k (r.diagnostic f) (r.diagnostic f') :=
  ⟨h.range, h.message, rfl, rfl, rfl⟩

namespace Report

variable {k : Nat} {a a' : Analysis} {settings : Settings}

/-- Rules find related diagnostics, one after the other. -/
theorem forall₂_foundBy {rules : List Rule}
    (h : ∀ r ∈ rules, FindsSame k a a' settings r) {memo : Memo} (hmemo : memo.WellTyped) :
    List.Forall₂ (Diagnostic.Moved k) (foundBy ⟨a, settings⟩ rules memo)
      (foundBy ⟨a', settings⟩ rules (memo.moved k)) := by
  induction rules generalizing memo with
  | nil => exact .nil
  | cons r rules ih =>
      have hrest (r : Rule) (hr : r ∈ rules) := h r (List.mem_cons_of_mem _ hr)
      obtain ⟨found, found', memo', hcheck, hcheck', hfound, hmemo'⟩ :=
        h r (List.mem_cons_self ..) memo hmemo
      rw [foundBy_cons ⟨a, settings⟩, foundBy_cons ⟨a', settings⟩,
        foundBy_singleton ⟨a, settings⟩ r, foundBy_singleton ⟨a', settings⟩ r,
        memoAfter_singleton ⟨a, settings⟩, memoAfter_singleton ⟨a', settings⟩, hcheck, hcheck']
      dsimp only
      split
      · refine List.rel_append ?_ (ih hrest hmemo')
        rw [List.forall₂_map_left_iff, List.forall₂_map_right_iff]
        exact hfound.imp fun f f' hf => moved_diagnostic hf
      · exact ih hrest hmemo

/-! ### Messages that quote a line -/

/-- The quoted declaration is the first one of its name in its frame. -/
theorem find?_of_mem_redeclared {first ds : List Declaration} {p : Declaration × Declaration}
    (h : p ∈ redeclared first ds) :
    p.1 ∈ ds ∧ isUnique p.1 = true ∧
      (first ++ ds.filter isUnique).find? (fun e => e.frame == p.1.frame && e.name == p.1.name) =
        some p.2 := by
  induction ds generalizing first with
  | nil => simp [redeclared] at h
  | cons d ds ih =>
      rw [redeclared] at h
      split at h
      · rename_i hunique
        rw [List.filter_cons_of_pos hunique]
        split at h
        · obtain ⟨hmem, hp, hfind⟩ := ih h
          rw [List.append_assoc] at hfind
          exact ⟨List.mem_cons_of_mem _ hmem, hp, hfind⟩
        · rename_i e hfound
          rcases List.mem_cons.1 h with rfl | h
          · refine ⟨List.mem_cons_self .., hunique, ?_⟩
            rw [List.find?_append, hfound]
            rfl
          · obtain ⟨hmem, hp, hfind⟩ := ih h
            refine ⟨List.mem_cons_of_mem _ hmem, hp, ?_⟩
            rw [List.find?_append, List.find?_cons]
            rw [List.find?_append] at hfind
            cases hsame : d.frame == p.1.frame && d.name == p.1.name with
            | false => exact hfind
            | true =>
                -- The declaration in between is itself declared again, so one comes before it.
                rw [Bool.and_eq_true, beq_iff_eq, beq_iff_eq] at hsame
                rw [hsame.1, hsame.2] at hfound
                rw [hfound] at hfind ⊢
                exact hfind
      · rename_i hunique
        obtain ⟨hmem, hp, hfind⟩ := ih h
        rw [List.filter_cons_of_neg hunique]
        exact ⟨List.mem_cons_of_mem _ hmem, hp, hfind⟩

/-- At one place one thing is said about a variable that is declared again. -/
theorem redeclaration_eq_of_range_eq (ha : a.IsRead) {p q : Declaration × Declaration}
    (hp : p ∈ redeclared [] a.table.declarations) (hq : q ∈ redeclared [] a.table.declarations)
    (hrange : p.1.range = q.1.range) : redeclaration p = redeclaration q := by
  obtain ⟨hmem, hunique, hfind⟩ := find?_of_mem_redeclared hp
  obtain ⟨hmem', hunique', hfind'⟩ := find?_of_mem_redeclared hq
  have hvariable {d : Declaration} (h : isUnique d = true) : d.isVariable = true := by
    simp only [isUnique, Bool.and_eq_true] at h
    exact h.1.1.1
  simp only [Declaration.range, Range.mk.injEq, Int.natCast_inj] at hrange
  have hsame : p.1 = q.1 := by
    rw [ha.table_eq] at hmem hmem'
    exact DeclarationTable.eq_of_place_eq ha.isNumbered hmem hmem' (hvariable hunique)
      (hvariable hunique') hrange.1 hrange.2.1
  rw [hsame, hfind'] at hfind
  exact congrArg redeclaration (Prod.ext hsame (Option.some.inj hfind).symm)

/-- The name that is assigned to stands on its line. -/
theorem line_of_reassigned? (ha : a.IsRead) {line : Line} (hline : line ∈ a.document.lines)
    {p : Token × Declaration} (hp : reassigned? a line = some p) : p.1.line = line.index := by
  obtain ⟨s, hs, hp⟩ := Option.bind_eq_some_iff.1 hp
  obtain ⟨d, -, rfl⟩ := Option.map_eq_some_iff.1 hp
  have hname : s.1 ∈ line.codeTokens := by
    cases htokens : line.codeTokens with
    | nil => simp [htokens, assignment?] at hs
    | cons name rest =>
        cases rest with
        | nil => simp [htokens, assignment?] at hs
        | cons op rest =>
            rw [htokens, assignment?] at hs
            split at hs
            · rw [← Option.some.inj hs]
              exact List.mem_cons_self ..
            · simp at hs
  obtain ⟨text, uri, hread⟩ := ha
  rw [hread] at hline
  exact line_of_mem_linesFrom hline (List.mem_filter.1 hname).1

/-- At one place one thing is said about an assignment to a constant. -/
theorem reassignment_eq_of_range_eq (ha : a.IsRead) {p q : Token × Declaration}
    (hp : p ∈ a.document.lines.filterMap (reassigned? a))
    (hq : q ∈ a.document.lines.filterMap (reassigned? a)) (hrange : p.1.range = q.1.range) :
    reassignment p = reassignment q := by
  obtain ⟨line, hline, hp⟩ := List.mem_filterMap.1 hp
  obtain ⟨line', hline', hq⟩ := List.mem_filterMap.1 hq
  have hindex : line.index = line'.index := by
    simp only [Token.range, Range.mk.injEq, Int.natCast_inj] at hrange
    rw [← line_of_reassigned? ha hline hp, hrange.1, line_of_reassigned? ha hline' hq]
  rw [ha.isNumbered.eq_of_index hline hline' hindex, hq, Option.some.injEq] at hp
  rw [hp]

/-- What a rule finds that looks at the document only. -/
theorem exists_finding_ofFindings {name code description : String} {severity : Severity}
    {findings : Analysis → List Finding} {memo : Memo} {d : Diagnostic}
    (h : d ∈ foundBy ⟨a, settings⟩ [ofFindings name code severity description findings] memo) :
    ∃ f ∈ findings a, d = (ofFindings name code severity description findings).diagnostic f := by
  rw [foundBy_singleton] at h
  split at h
  · obtain ⟨f, hf, rfl⟩ := List.mem_map.1 h
    exact ⟨f, hf, rfl⟩
  · simp at h

/-- A diagnostic that quotes a line is of one of two kinds. -/
theorem finding_of_quotesLine {memo : Memo} {d : Diagnostic}
    (hd : d ∈ foundBy ⟨a, settings⟩ Rule.all memo) (hquotes : quotesLine d.code = true) :
    (∃ p ∈ redeclared [] a.table.declarations,
        d = duplicateDeclaration.diagnostic (redeclaration p)) ∨
      ∃ p ∈ a.document.lines.filterMap (reassigned? a),
        d = constReassignment.diagnostic (reassignment p) := by
  obtain ⟨before, r, after, hall, hd⟩ := mem_foundBy_iff.1 hd
  have hr : r ∈ Rule.all := by simp [hall]
  have hcode : r.code = duplicateDeclaration.code ∨ r.code = constReassignment.code := by
    obtain ⟨f, rfl⟩ := exists_finding hd
    rw [quotesLine, Bool.or_eq_true, beq_iff_eq, beq_iff_eq] at hquotes
    exact hquotes
  rcases hcode with hcode | hcode
  · obtain rfl : r = duplicateDeclaration :=
      List.inj_on_of_nodup_map nodup_codes_all hr (by simp [Rule.all]) hcode
    obtain ⟨f, hf, rfl⟩ := exists_finding_ofFindings hd
    rw [duplicatesAfter_eq] at hf
    obtain ⟨p, hp, rfl⟩ := List.mem_map.1 hf
    exact .inl ⟨p, hp, rfl⟩
  · obtain rfl : r = constReassignment :=
      List.inj_on_of_nodup_map nodup_codes_all hr (by simp [Rule.all]) hcode
    obtain ⟨f, hf, rfl⟩ := exists_finding_ofFindings hd
    obtain ⟨line, hline, hf⟩ := List.mem_filterMap.1 hf
    rw [reassignmentIn_eq] at hf
    obtain ⟨p, hp, rfl⟩ := Option.map_eq_some_iff.1 hf
    exact .inr ⟨p, List.mem_filterMap.2 ⟨line, hline, hp⟩, rfl⟩

/-- Where a line is quoted, place and code tell the message. -/
theorem message_eq_of_place_eq (ha : a.IsRead) {memo : Memo} {d e : Diagnostic}
    (hd : d ∈ foundBy ⟨a, settings⟩ Rule.all memo) (he : e ∈ foundBy ⟨a, settings⟩ Rule.all memo)
    (hrange : d.range = e.range) (hcode : d.code = e.code) (hquotes : quotesLine d.code = true) :
    d.message = e.message := by
  have hcodes : duplicateDeclaration.code ≠ constReassignment.code := by decide
  rcases finding_of_quotesLine hd hquotes with ⟨p, hp, rfl⟩ | ⟨p, hp, rfl⟩ <;>
    rcases finding_of_quotesLine he (hcode ▸ hquotes) with ⟨q, hq, rfl⟩ | ⟨q, hq, rfl⟩
  · exact congrArg Finding.message (redeclaration_eq_of_range_eq ha hp hq hrange)
  · exact absurd hcode hcodes
  · exact absurd hcode hcodes.symm
  · exact congrArg Finding.message (reassignment_eq_of_range_eq ha hp hq hrange)

end Report

/-! ### The order -/

namespace Diagnostic

/-- The part of the order that looks at place and code. -/
def comparePlace (d e : Diagnostic) : Ordering :=
  (compare d.range.line e.range.line).then <|
  (compare d.range.start e.range.start).then <|
  (compare d.range.stop e.range.stop).then <|
  compare d.code e.code

theorem compareKey_eq (d e : Diagnostic) :
    compareKey d e = (comparePlace d e).then (compare d.message e.message) := by
  simp only [compareKey, comparePlace, Ordering.then_assoc]

theorem comparePlace_eq_eq_iff {d e : Diagnostic} :
    comparePlace d e = .eq ↔ d.range = e.range ∧ d.code = e.code := by
  obtain ⟨⟨_, _, _⟩, _, _, _, _⟩ := d
  obtain ⟨⟨_, _, _⟩, _, _, _, _⟩ := e
  simp [comparePlace, Ordering.then_eq_eq, and_assoc]

theorem compare_moved (k : Nat) (l m : Int) :
    compare (if l < k then l else l + 1) (if m < k then m else m + 1) = compare l m := by
  rcases Int.lt_trichotomy l m with h | rfl | h
  · rw [compare_lt_iff_lt.2 h, compare_lt_iff_lt]
    split <;> split <;> omega
  · rw [Std.compare_self, Std.compare_self]
  · rw [compare_gt_iff_gt.2 h, compare_gt_iff_gt]
    split <;> split <;> omega

/-- Place and code compare as before. -/
theorem Moved.comparePlace {k : Nat} {d d' e e' : Diagnostic} (hd : d.Moved k d')
    (he : e.Moved k e') : d'.comparePlace e' = d.comparePlace e := by
  simp only [Diagnostic.comparePlace, hd.range, he.range, hd.code, he.code, Range.moved,
    compare_moved]

end Diagnostic

namespace Report

/-- A diagnostic of the first list and what becomes of it, which is one of the second list. -/
structure Corresponds (k : Nat) (ds ds' : List Diagnostic) (d d' : Diagnostic) : Prop where
  moved : d.Moved k d'
  mem : d ∈ ds
  mem' : d' ∈ ds'

/-- Where a line is quoted, place and code tell the message. -/
def ToldByPlace (ds : List Diagnostic) : Prop :=
  ∀ d ∈ ds, ∀ e ∈ ds, d.range = e.range → d.code = e.code → quotesLine d.code = true →
    d.message = e.message

section

variable {k : Nat} {ds ds' : List Diagnostic} (htold : ToldByPlace ds) (htold' : ToldByPlace ds')
  {d d' e e' : Diagnostic} (hd : Corresponds k ds ds' d d') (he : Corresponds k ds ds' e e')
include htold htold' hd he

/-- At one place with one code, messages are the same or not, before and after. -/
theorem Corresponds.compare_message (hplace : d.comparePlace e = .eq) :
    compare d'.message e'.message = compare d.message e.message := by
  have hplace' := hplace
  rw [← hd.moved.comparePlace he.moved] at hplace'
  obtain ⟨hrange, hcode⟩ := Diagnostic.comparePlace_eq_eq_iff.1 hplace
  obtain ⟨hrange', hcode'⟩ := Diagnostic.comparePlace_eq_eq_iff.1 hplace'
  have hmessage := hd.moved.message
  have hmessage' := he.moved.message
  rw [← hcode] at hmessage'
  by_cases hquotes : quotesLine d.code = true
  · -- The quoted numbers change, but at one place there is one message, before and after.
    rw [htold d hd.mem e he.mem hrange hcode hquotes,
      htold' d' hd.mem' e' he.mem' hrange' hcode' (hd.moved.code ▸ hquotes), Std.compare_self,
      Std.compare_self]
  · rw [if_neg hquotes] at hmessage hmessage'
    rw [hmessage, hmessage']

theorem Corresponds.le_eq : Diagnostic.le d' e' = Diagnostic.le d e := by
  rw [Diagnostic.le, Diagnostic.le, Diagnostic.compareKey_eq, Diagnostic.compareKey_eq,
    hd.moved.comparePlace he.moved]
  cases hplace : d.comparePlace e with
  | lt => rfl
  | gt => rfl
  | eq => rw [hd.compare_message htold htold' he hplace]

/-- Diagnostics are told apart as before. -/
theorem Corresponds.eq_iff : d' = e' ↔ d = e := by
  have hkey (d e : Diagnostic) : d = e ↔
      (d.comparePlace e = .eq ∧ compare d.message e.message = .eq) ∧ d.severity = e.severity ∧
        d.rule = e.rule := by
    obtain ⟨_, _, _, _, _⟩ := d
    obtain ⟨_, _, _, _, _⟩ := e
    simp only [Diagnostic.comparePlace_eq_eq_iff, Std.compare_eq_iff_eq, Diagnostic.mk.injEq]
    tauto
  rw [hkey d' e', hkey d e, hd.moved.comparePlace he.moved, hd.moved.severity, he.moved.severity,
    hd.moved.rule, he.moved.rule]
  -- Messages are compared only where place and code are the same.
  refine and_congr_left' (and_congr_right fun hplace => ?_)
  rw [hd.compare_message htold htold' he hplace]

end

/-! ### Arranging -/

section

variable {R : Diagnostic → Diagnostic → Prop}
  (heq : ∀ {d d' e e' : Diagnostic}, R d d' → R e e' → (d' = e' ↔ d = e))
include heq

theorem forall₂_insertNew {found found' : List Diagnostic} (h : List.Forall₂ R found found')
    {d d' : Diagnostic} (hd : R d d') :
    List.Forall₂ R (insertNew found d) (insertNew found' d') := by
  have hmem : d' ∈ found' ↔ d ∈ found := by
    induction h with
    | nil => simp
    | cons he _ ih => rw [List.mem_cons, List.mem_cons, heq hd he, ih]
  simp only [insertNew, hmem]
  split
  · exact h
  · exact List.rel_append h (.cons hd .nil)

theorem forall₂_foldl_insertNew {ds ds' : List Diagnostic} (h : List.Forall₂ R ds ds')
    {found found' : List Diagnostic} (hfound : List.Forall₂ R found found') :
    List.Forall₂ R (ds.foldl insertNew found) (ds'.foldl insertNew found') := by
  induction h generalizing found found' with
  | nil => exact hfound
  | cons hd _ ih => exact ih (forall₂_insertNew heq hfound hd)

omit heq

/-- Sorting by an order that compares related elements alike. -/
theorem forall₂_mergeSort (hle : ∀ {d d' e e' : Diagnostic}, R d d' → R e e' →
    Diagnostic.le d' e' = Diagnostic.le d e) {ds ds' : List Diagnostic}
    (h : List.Forall₂ R ds ds') :
    List.Forall₂ R (ds.mergeSort Diagnostic.le) (ds'.mergeSort Diagnostic.le) := by
  obtain ⟨hlength, hpairs⟩ := List.forall₂_iff_zip.1 h
  -- Both are the pairs, sorted once, and one half of each.
  have hleft := List.map_mergeSort (l := ds.zip ds') (f := Prod.fst)
    (r := fun p q => Diagnostic.le p.1 q.1) (s := Diagnostic.le) fun _ _ _ _ => rfl
  have hright := List.map_mergeSort (l := ds.zip ds') (f := Prod.snd)
    (r := fun p q => Diagnostic.le p.1 q.1) (s := Diagnostic.le)
    fun p hp q hq => (hle (hpairs hp) (hpairs hq)).symm
  rw [List.map_fst_zip hlength.le] at hleft
  rw [List.map_snd_zip hlength.ge] at hright
  rw [← hleft, ← hright, List.forall₂_map_left_iff, List.forall₂_map_right_iff, List.forall₂_same]
  intro p hp
  exact hpairs (List.mem_mergeSort.1 hp)

end

variable {k : Nat}

/-- Related diagnostics, arranged. -/
theorem forall₂_arrange {ds ds' : List Diagnostic} (h : List.Forall₂ (Diagnostic.Moved k) ds ds')
    (htold : ToldByPlace ds) (htold' : ToldByPlace ds') :
    List.Forall₂ (Diagnostic.Moved k) (arrange ds) (arrange ds') := by
  have hcorresponds : List.Forall₂ (Corresponds k ds ds') ds ds' := by
    obtain ⟨hlength, hpairs⟩ := List.forall₂_iff_zip.1 h
    refine List.forall₂_iff_zip.2 ⟨hlength, fun hp => ?_⟩
    exact ⟨hpairs hp, (List.of_mem_zip hp).1, (List.of_mem_zip hp).2⟩
  have hsorted := forall₂_mergeSort (fun hd he => hd.le_eq htold htold' he)
    (forall₂_foldl_insertNew (fun hd he => hd.eq_iff htold htold' he) hcorresponds .nil)
  exact hsorted.imp fun _ _ hd => hd.moved

theorem forall₂_cap {ds ds' : List Diagnostic} (h : List.Forall₂ (Diagnostic.Moved k) ds ds')
    (limit : Int) : List.Forall₂ (Diagnostic.Moved k) (cap limit ds) (cap limit ds') := by
  rw [cap, cap, h.length_eq]
  split
  · exact h
  · split
    · exact List.forall₂_take _ h
    · exact List.forall₂_take _ h

end Report

/-! ### The analyzer -/

open Text

/-- The analysis of a text with one more, empty line. -/
theorem Analysis.moved_ofText {k : Nat} {text text' : List Char} (uri : Option String)
    (catalog : Catalog) (hk : k ≤ (linesOf text).length)
    (htext : linesOf text' = (linesOf text).insertIdx k []) :
    Moved k (ofText text uri catalog) (ofText text' uri catalog) := by
  have hdocument := Document.spaced_ofText uri hk htext
  have htree := ScopeTree.moved_build (Document.isNumbered_ofText text uri)
    (Document.isNumbered_ofText text' uri) hdocument
  exact ⟨hdocument, htree, DeclarationTable.collect_moved hdocument htree, rfl⟩

namespace Analyzer

/-- An empty line more changes the report only by numbers. Wherever it is put, be it into a comment,
a bracket, a chain, a switch or a block that is left open, the report on the longer text lists the
old diagnostics in the old order. Those on the lines behind are one line further down, and a line
that a message quotes is renumbered in the same way. This holds for every text whose lines are the
old ones with an empty line put in; the old lines joined again are one. -/
theorem blank_line_renumbers (z : Analyzer) (text : List Char) (uri : Option String) (k : Nat)
    (hk : k ≤ (linesOf text).length) :
    linesOf (withBlankLine k text) = (linesOf text).insertIdx k [] ∧
      ∀ text', linesOf text' = (linesOf text).insertIdx k [] →
        List.Forall₂ (Diagnostic.Moved k) (z.analyze text uri).diagnostics
            (z.analyze text' uri).diagnostics ∧
          (z.analyze text' uri).warnings = (z.analyze text uri).warnings := by
  refine ⟨linesOf_withBlankLine hk, ?_⟩
  intro text' htext
  refine ⟨?_, by rw [warnings_analyze, warnings_analyze]⟩
  have hmoved := Analysis.moved_ofText uri z.catalog hk htext
  have hread := Analysis.isRead_ofText text uri z.catalog
  have hread' := Analysis.isRead_ofText text' uri z.catalog
  unfold analyze
  split
  · have hfound := Report.forall₂_foundBy
      (fun r hr => Rule.findsSame_of_mem hmoved hread hread' z.isValid.1 hr) Memo.wellTyped_empty
    refine Report.forall₂_cap (Report.forall₂_arrange hfound ?_ ?_) _
    · exact fun d hd e he => Report.message_eq_of_place_eq hread hd he
    · exact fun d hd e he => Report.message_eq_of_place_eq hread' hd he
  · exact .nil

/-- A block that is left open; in it is a call over three lines, with a comment over two of them. -/
def openBlock : List Char :=
  "if ready:\nvar y = f(1,\n/* still\nopen */ 2)\nconst x = 1\nx = 2\nvar x = 3\n".toList

/-- An empty line in the comment, which is inside of the brackets and of the open block. Behind it
a constant is declared, assigned to and declared again. -/
theorem blank_line_renumbers_openBlock :
    3 ≤ (linesOf openBlock).length ∧
      (Report.foundBy ⟨unresolving.prepare openBlock none, unresolving.settings⟩ Rule.all {}).map
        (fun d => (d.code, d.range.line)) = [("PF-W102", 0), ("PF-E004", 6), ("PF-E005", 5)] ∧
      List.Forall₂ (Diagnostic.Moved 3) (unresolving.analyze openBlock none).diagnostics
        (unresolving.analyze (withBlankLine 3 openBlock) none).diagnostics := by
  have hk : 3 ≤ (linesOf openBlock).length := by decide +kernel
  obtain ⟨hlines, hreport⟩ := blank_line_renumbers unresolving openBlock none 3 hk
  exact ⟨hk, by decide +kernel, (hreport _ hlines).1⟩

end Analyzer

end Polyloft
