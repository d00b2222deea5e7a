import Polyloft.Proofs.Declaration.Column
import Polyloft.Proofs.Declaration.Header
import Polyloft.Proofs.Inference.Returns
import Polyloft.Proofs.Rule.Context
import Polyloft.Proofs.Scope.HeaderLine
import Polyloft.Proofs.Ty.Render

/-!
# Polyloft.Proofs.Declaration.OneLine

Functions that are written on one line, header, statement and `end`. The header of a function counts
only with a colon at the end of its line, so such a line opens no block: its statement belongs to
the function around it, if there is one. A `return` there is judged and counted as one of that
function, and the function that the line declares has no body, so nothing is known of what it
returns. A written return type is cut out together with the rest of the line, and then not kept, or
kept with the statement and the `end` behind it.

## Proof shape

The line is idle for the pass over scopes (`idle_of_isOneLineFunction`); what is said of blocks and
of returns follows from that. For the written type, the text of the line is followed from its end:
it ends with `end` and blanks (`EndsInEnd`), and so does every part of it that is cut out.
-/

namespace Polyloft

open Polyloft.Text

/-- Behind annotations and modifiers the word `def` comes first, and the word `end` last. -/
def IsOneLineFunction (tokens : List Token) : Prop :=
  (tokens.dropWhile Token.isDeclarationPrefix).head?.any (·.isKeyword "def") = true ∧
    tokens.getLast?.any (·.isKeyword "end") = true

instance (tokens : List Token) : Decidable (IsOneLineFunction tokens) :=
  inferInstanceAs (Decidable (_ ∧ _))

/-! ### Blocks -/

theorem Token.isKeyword_iff {t : Token} {w : String} :
    t.isKeyword w = true ↔ t.kind = .keyword ∧ t.text = w := by
  rw [isKeyword, Bool.and_eq_true, beq_iff_eq, beq_iff_eq]

section

variable {tokens rest : List Token} {word : Token}
  (htokens : tokens.dropWhile Token.isDeclarationPrefix = word :: rest)
  (hdef : word.isKeyword "def" = true)
include htokens hdef

/-- Neither an annotation nor a modifier nor `def` is the word `end`. -/
theorem isTerminator_of_def : isTerminator tokens = false := by
  cases tokens with
  | nil => rfl
  | cons t ts =>
      have hfirst : t.isKeyword "end" = false := by
        rw [List.dropWhile_cons] at htokens
        split at htokens
        · rename_i hprefix
          rw [Bool.eq_false_iff]
          intro hend
          obtain ⟨hkind, htext⟩ := Token.isKeyword_iff.1 hend
          revert hprefix
          simp [Token.isDeclarationPrefix, Token.isKeywordIn, hkind, htext, modifiers]
        · rw [(List.cons.inj htokens).1]
          exact Token.isKeyword_eq_false hdef (by decide)
      simp [isTerminator, hfirst]

/-- Without a colon at its end, a function header opens nothing. -/
theorem opening?_of_def (hend : tokens.getLast?.any (·.isKeyword "end") = true) :
    opening? tokens = none := by
  obtain ⟨last, hlast, hend⟩ := (Option.any_eq_true ..).1 hend
  have hlast : rest.getLastD word = last := by
    rw [← List.takeWhile_append_dropWhile (p := Token.isDeclarationPrefix) (l := tokens), htokens,
      List.getLast?_append_of_ne_nil _ (List.cons_ne_nil word rest), List.getLast?_cons] at hlast
    simpa using hlast
  have hcolon : (rest.getLastD word).isSymbol ":" = false := by
    rw [hlast, Token.isSymbol, (Token.isKeyword_iff.1 hend).1]
    rfl
  rw [opening?, htokens]
  dsimp only
  rw [if_pos hdef, hcolon, if_neg Bool.false_ne_true]

end

/-- The line is no terminator and opens nothing. -/
theorem idle_of_isOneLineFunction {tokens : List Token} (h : IsOneLineFunction tokens) :
    ScopeBuilder.Idle tokens := by
  obtain ⟨word, hword, hdef⟩ := (Option.any_eq_true ..).1 h.1
  obtain ⟨rest, htokens⟩ := List.head?_eq_some_iff.1 hword
  obtain ⟨hkind, htext⟩ := Token.isKeyword_iff.1 hdef
  have hne : tokens.isEmpty = false := by
    cases tokens with
    | nil => cases htokens
    | cons t ts => rfl
  intro b n
  rw [ScopeBuilder.stepAt, hne, isTerminator_of_def htokens hdef, if_neg Bool.false_ne_true,
    if_neg Bool.false_ne_true, ScopeBuilder.statement, htokens]
  simp [hkind, htext, branchConstruct?, clauseConstruct?, ScopeBuilder.ordinary,
    opening?_of_def htokens hdef h.2]

/-! ### The end of a line -/

theorem isBlank_of_isSkipped {c : Char} (h : isSkipped c = true) : isBlank c = true := by
  simp only [isSkipped, Bool.or_eq_true, beq_iff_eq] at h
  rcases h with (((rfl | rfl) | rfl) | rfl) | rfl <;> decide

/-- The last token of a text stands at its end, separators aside. -/
theorem Tiles.exists_split {text : List Char} {k : Nat} {tokens : List Token} {t : Token}
    (h : Tiles text k (tokens ++ [t])) :
    ∃ before after, text = before ++ (t.text.toList ++ after) ∧
      ∀ c ∈ after, isSkipped c = true := by
  have ht : t ∈ tokens ++ [t] := by simp
  obtain ⟨hstop, hslice⟩ := h.slice ht
  have hcolumn := Token.column_lt_stop (h.ne_empty ht)
  refine ⟨text.take t.column, text.drop t.stop, ?_, ?_⟩
  · have hrest : (text.drop t.column).drop (t.stop - t.column) = text.drop t.stop := by
      rw [List.drop_drop]
      congr 1
      omega
    rw [hslice, Span.slice, ← hrest, List.take_append_drop, List.take_append_drop]
  · intro c hc
    obtain ⟨j, hj⟩ := List.mem_iff_getElem?.1 hc
    rw [List.getElem?_drop] at hj
    refine h.separated (by have := h.le_column ht; omega) hj fun u hu => ?_
    have hle : u.stop ≤ t.stop := by
      rcases List.mem_append.1 hu with hu | hu
      · have := (List.pairwise_append.1 h.ordered).2.2 u hu t (List.mem_singleton_self t)
        omega
      · rw [List.mem_singleton.1 hu]
    rintro ⟨-, hlt⟩
    omega

theorem dropEndWhile_append_of_forall {p : Char → Bool} (cs : List Char) {back : List Char}
    (h : ∀ c ∈ back, p c = true) : dropEndWhile p (cs ++ back) = dropEndWhile p cs := by
  induction cs with
  | nil =>
      induction back with
      | nil => rfl
      | cons c back ih =>
          rw [List.forall_mem_cons] at h
          rw [List.nil_append] at ih ⊢
          rw [dropEndWhile_cons, ih h.2, if_pos ⟨rfl, h.1⟩]
          rfl
  | cons c cs ih => rw [List.cons_append, dropEndWhile_cons, dropEndWhile_cons, ih]

theorem shortest_spec (done : List Char → Bool) (cs : List Char) :
    done (cs.drop (shortest done cs)) = true ∨ cs.drop (shortest done cs) = [] := by
  induction cs with
  | nil => exact .inr rfl
  | cons c cs ih =>
      rw [shortest]
      split
      · exact .inl ‹_›
      · rwa [Nat.add_comm, List.drop_succ_cons]

theorem isBlank_or_eq_of_endsWithColon {cs : List Char} (h : Shape.endsWithColon cs = true)
    {c : Char} (hc : c ∈ cs) : isBlank c = true ∨ c = ':' := by
  have hrest : (Cursor.ofText cs).skipBlanks.rest = cs.dropWhile isBlank :=
    Cursor.rest_skipWhile isBlank _
  rw [← List.takeWhile_append_dropWhile (p := isBlank) (l := cs)] at hc
  rcases List.mem_append.1 hc with hc | hc
  · exact .inl (List.mem_takeWhile_imp hc)
  · rw [Shape.endsWithColon, Cursor.atEnd, Cursor.skipBlanks, Cursor.rest_skipWhile,
      List.isEmpty_iff, List.dropWhile_eq_nil_iff, Shape.optionally, Cursor.literal?, hrest] at h
    cases hdrop : cs.dropWhile isBlank with
    | nil => simp [hdrop] at hc
    | cons d ds =>
        have hd : isBlank d = false := by
          simpa [hdrop] using List.head?_dropWhile_not isBlank cs
        rw [hdrop] at hc h
        split at h
        · rename_i hcolon
          obtain ⟨more, hmore⟩ := List.isPrefixOf_iff_prefix.1 hcolon
          obtain rfl : ':' = d := (List.cons.inj hmore).1
          rcases List.mem_cons.1 hc with rfl | hc
          · exact .inr rfl
          · refine .inl (h c ?_)
            rw [Option.getD_some, Cursor.advance, hrest, hdrop]
            exact hc
        · rw [Option.getD_none, hrest, hdrop] at h
          rw [h d (List.mem_cons_self ..)] at hd
          cases hd

/-- The text ends with the word `end`, blanks aside. -/
def EndsInEnd (cs : List Char) : Prop :=
  ∃ before blanks, cs = before ++ ("end".toList ++ blanks) ∧ ∀ c ∈ blanks, isBlank c = true

namespace EndsInEnd

variable {cs front back : List Char}

/-- What stands behind a sign ends like the whole. -/
theorem of_append {c : Char} (h : EndsInEnd (front ++ c :: back)) (hc : isBlank c = false)
    (hend : c ∉ "end".toList) : EndsInEnd back := by
  obtain ⟨before, blanks, heq, hblanks⟩ := h
  rw [List.append_cons] at heq
  rcases List.append_eq_append_iff.1 heq with ⟨more, -, hback⟩ | ⟨more, hfront, hback⟩
  · exact ⟨more, blanks, hback, hblanks⟩
  · rcases List.eq_nil_or_concat' more with rfl | ⟨more, d, rfl⟩
    · exact ⟨[], blanks, hback.symm, hblanks⟩
    · -- The sign would be one of the last characters.
      rw [← List.append_assoc] at hfront
      obtain rfl : c = d := by simpa using (List.append_inj' hfront rfl).2
      have hmem : c ∈ "end".toList ++ blanks := by
        rw [hback]
        simp
      rcases List.mem_append.1 hmem with hmem | hmem
      · exact absurd hmem hend
      · rw [hblanks c hmem] at hc
        cases hc

theorem stripStart (h : EndsInEnd cs) : EndsInEnd (stripStart cs) := by
  obtain ⟨before, blanks, rfl, hblanks⟩ := h
  rw [Text.stripStart, List.dropWhile_append]
  split
  · exact ⟨[], blanks, rfl, hblanks⟩
  · exact ⟨_, blanks, rfl, hblanks⟩

theorem strip (h : EndsInEnd cs) : ∃ before, strip cs = before ++ "end".toList := by
  obtain ⟨before, blanks, heq, hblanks⟩ := h.stripStart
  refine ⟨before, ?_⟩
  rw [Text.strip, heq, ← List.append_assoc, stripEnd, dropEndWhile_append_of_forall _ hblanks,
    show "end".toList = ['e', 'n'] ++ ['d'] from rfl, ← List.append_assoc,
    Ty.dropEndWhile_concat_of_neg (by decide)]

/-- A header is cut off behind the `end`, because that is no blank and no colon. -/
theorem take_shortest (h : EndsInEnd cs) :
    EndsInEnd (cs.take (shortest Shape.endsWithColon cs)) := by
  obtain ⟨before, blanks, heq, hblanks⟩ := h
  have hrest : 'd' ∉ cs.drop (shortest Shape.endsWithColon cs) := by
    intro hd
    rcases shortest_spec Shape.endsWithColon cs with hdone | hnil
    · rcases isBlank_or_eq_of_endsWithColon hdone hd with hblank | hcolon
      · exact absurd hblank (by decide)
      · exact absurd hcolon (by decide)
    · rw [hnil] at hd
      cases hd
  generalize shortest Shape.endsWithColon cs = n at hrest
  rw [← List.append_assoc] at heq
  rcases List.append_eq_append_iff.1 ((List.take_append_drop n cs).trans heq) with
    ⟨more, htake, hdrop⟩ | ⟨more, htake, hdrop⟩
  · rcases List.eq_nil_or_concat' more with rfl | ⟨more, d, rfl⟩
    · exact ⟨before, [], by simpa using htake.symm, by simp⟩
    · rw [← List.append_assoc, show "end".toList = ['e', 'n'] ++ ['d'] from rfl,
        ← List.append_assoc] at htake
      obtain rfl : 'd' = d := by simpa using (List.append_inj' htake rfl).2
      exact absurd (by rw [hdrop]; simp) hrest
  · refine ⟨before, more, by rw [htake, List.append_assoc], ?_⟩
    exact fun c hc => hblanks c (by rw [hdrop]; exact List.mem_append_left _ hc)

end EndsInEnd

/-- A return type that is kept has the end of the line with it, without a space before the
`end`. -/
theorem returnText?_of_endsInEnd {code tail : List Char} {s : String} (hcode : EndsInEnd code)
    (htail : tail <:+ code) (h : Shape.returnText? tail = some s) :
    ∃ before, s.toList = before ++ "end".toList ∧ before ≠ [] ∧ before.getLast? ≠ some ' ' := by
  obtain ⟨c, hc, h⟩ := Option.bind_eq_some_iff.1 h
  rw [Cursor.literal?] at hc
  split at hc
  · rename_i harrow
    obtain ⟨rest, hrest⟩ := List.isPrefixOf_iff_prefix.1 harrow
    obtain ⟨front, rfl⟩ := htail
    have hc : c.rest = rest := by
      rw [← Option.some.inj hc, Cursor.advance, ← hrest]
      rfl
    have htail : tail = tail.takeWhile isBlank ++ ['-'] ++ '>' :: rest := by
      rw [List.append_assoc, show ['-'] ++ '>' :: rest = "->".toList ++ rest from rfl, hrest,
        Cursor.skipBlanks, Cursor.rest_skipWhile, Cursor.ofText, List.takeWhile_append_dropWhile]
    rw [htail, ← List.append_assoc] at hcode
    have hends := (hcode.of_append (by decide) (by decide)).stripStart.take_shortest
    rw [hc] at h
    obtain ⟨before, hbefore⟩ := hends.strip
    dsimp only at h
    rw [hbefore] at h
    split at h
    · cases h
    · rename_i hkept
      simp only [not_or] at hkept
      refine ⟨before, ?_, ?_, ?_⟩
      · rw [← Option.some.inj h, String.toList_ofList]
      · rintro rfl
        exact hkept.2.1 rfl
      · intro hspace
        obtain ⟨more, rfl⟩ := List.getLast?_eq_some_iff.1 hspace
        refine hkept.2.2 (List.isSuffixOf_iff_suffix.2 ⟨more, ?_⟩)
        simp
  · cases hc

/-! ### Declarations -/

namespace Collect

theorem paramsAfter_suffix (line : Line) (column : Nat) :
    (paramsAfter line column).2 <:+ line.code := by
  unfold paramsAfter
  dsimp only
  split
  · exact List.drop_suffix ..
  · split
    · exact List.nil_suffix
    · exact List.drop_suffix ..

/-- A member has no return type, or the one that is written on the line. -/
theorem returnText_of_mem_memberDecls {tree : ScopeTree} {line : Line} {d : Declaration}
    (hd : d ∈ memberDecls tree line) {s : String} (hs : d.returnText = some s) :
    ∃ tail, tail <:+ line.code ∧ Shape.returnText? tail = some s := by
  unfold memberDecls at hd
  split at hd
  · simp at hd
  · split at hd
    · simp at hd
    · split at hd
      · obtain ⟨name, -, rfl⟩ := List.mem_map.1 hd
        cases hs
      · split at hd
        · obtain ⟨name, -, rfl⟩ := List.mem_map.1 hd
          exact ⟨_, paramsAfter_suffix line name.1.stop, hs⟩
        · simp at hd

/-- What a line that opens nothing declares. -/
theorem Declares.of_opens_nothing {tree : ScopeTree} {line : Line} {ds : List Declaration}
    (h : Declares tree line ds) {d : Declaration} (hd : d ∈ ds)
    (hopened : bodyOf tree line = none) : d.body = none ∧ ∀ s, d.returnText = some s →
      ∃ tail, tail <:+ line.code ∧ Shape.returnText? tail = some s := by
  cases h with
  | nothing => simp at hd
  | classLike word name _ =>
      unfold classDecls at hd
      dsimp only at hd
      rw [hopened] at hd
      obtain rfl := List.mem_singleton.1 hd
      exact ⟨rfl, by simp⟩
  | function form hform name _ =>
      unfold functionDecls at hd
      dsimp only at hd
      rw [hopened] at hd
      obtain rfl := List.mem_singleton.1 hd
      refine ⟨rfl, fun s hs => ?_⟩
      dsimp only at hs
      split at hs
      · exact ⟨_, paramsAfter_suffix line name.stop, hs⟩
      · cases hs
  | «variable» v =>
      obtain rfl := List.mem_singleton.1 hd
      exact ⟨rfl, by simp [variableDecl]⟩
  | loop l _ =>
      unfold loopDecls at hd
      rw [hopened] at hd
      simp at hd
  | caught name type =>
      unfold caughtDecls at hd
      dsimp only at hd
      split at hd
      · simp at hd
      · obtain rfl := List.mem_singleton.1 hd
        exact ⟨rfl, by simp⟩
  | member =>
      exact ⟨body_of_mem_memberDecls hd, fun s hs => returnText_of_mem_memberDecls hd hs⟩

end Collect

theorem Line.endsInEnd_code {text : List Char} {uri : Option String} {l : Line}
    (hl : l ∈ (Document.ofText text uri).lines) (hone : IsOneLineFunction l.codeTokens) :
    EndsInEnd l.code := by
  obtain ⟨last, hlast, hend⟩ := (Option.any_eq_true ..).1 hone.2
  obtain ⟨front, hfront⟩ := List.getLast?_eq_some_iff.1 hlast
  have hne : l.codeTokens ≠ [] := by simp [hfront]
  obtain ⟨hlexed, -⟩ := Document.lexed_of_codeTokens_ne_nil hl hne
  have htiles : Tiles l.code 0 (lexFrom l.index 0 l.code).1 := tiles_lexFrom l.index rfl
  rw [hlexed.code, hfront] at htiles
  obtain ⟨before, after, hcode, hafter⟩ := htiles.exists_split
  rw [(Token.isKeyword_iff.1 hend).2] at hcode
  exact ⟨before, after, hcode, fun c hc => isBlank_of_isSkipped (hafter c hc)⟩

/-! ### One-line functions -/

namespace Analysis

/-- What holds of a line that declares a function but opens no block for it. -/
structure Bodiless (a : Analysis) (l : Line) : Prop where
  /-- No frame has its header on the line, and those around it start earlier. -/
  opens : a.tree.openedAt? l.index = none
  around : ∀ f ∈ a.tree.around l.index, f.id = 0 ∨ f.start < l.index
  /-- What is declared on the line has no body, so nothing is known of what it returns. -/
  returnType : ∀ d ∈ a.table.declarations, d.line = l.index →
    d.body = none ∧ a.returnType d = pure .any
  /-- A written return type is not kept, or kept with the rest of the line behind it. -/
  returnText : ∀ d ∈ a.table.declarations, d.line = l.index → ∀ s, d.returnText = some s →
    ∃ before, s.toList = before ++ "end".toList ∧ before ≠ [] ∧ before.getLast? ≠ some ' '
  /-- Its `return`s are those of the function around it. -/
  returns : ∀ body, a.tree.functionAt? l.index = some body →
    ∀ r ∈ returnsOf l.codeTokens, (r, l.index) ∈ a.returnsWithin body

end Analysis

/-- In every text, a line with a function on it opens no block: its header and statement stand in
the block around it, and a `return` on it is reported exactly if no function is around the line. -/
theorem Analyzer.one_line_functions_are_bodiless (z : Analyzer) (text : List Char)
    (uri : Option String) (l : Line) (hl : l ∈ (Document.ofText text uri).lines)
    (hone : IsOneLineFunction l.codeTokens) :
    (z.prepare text uri).Bodiless l ∧
      z.JudgesWords text uri .returnOutsideFunction l.index l.codeTokens ["return"]
        (∃ f ∈ (z.prepare text uri).tree.around l.index, f.kind = .function) := by
  have hdoc := Document.isNumbered_ofText text uri
  have hidle := idle_of_isOneLineFunction hone
  have hopened := ScopeTree.openedAt?_of_idle hdoc hl hidle
  have hbody : Collect.bodyOf (ScopeTree.build (Document.ofText text uri)) l = none := by
    rw [Collect.bodyOf, hopened, Option.map_none]
  have hdeclared : ∀ d ∈ (z.prepare text uri).table.declarations, d.line = l.index →
      d.body = none ∧ ∀ s, d.returnText = some s →
        ∃ tail, tail <:+ l.code ∧ Shape.returnText? tail = some s := by
    intro d hd hline
    obtain ⟨l', hl', hdl, hline'⟩ := DeclarationTable.exists_line_of_mem hd
    obtain rfl : l' = l := hdoc.eq_of_index hl' hl (hline'.symm.trans hline)
    exact (Collect.declares_lineDecls _ _).of_opens_nothing hdl hbody
  refine ⟨⟨hopened, fun f hf => ScopeTree.start_lt_of_idle hdoc hl hidle hf, ?_, ?_, ?_⟩, ?_⟩
  · intro d hd hline
    have hnone := (hdeclared d hd hline).1
    refine ⟨hnone, Analysis.returnTypeIn_of_no_body ?_⟩
    rw [Analysis.functionBody?, hnone]
    rfl
  · intro d hd hline s hs
    obtain ⟨tail, htail, hs⟩ := (hdeclared d hd hline).2 s hs
    exact returnText?_of_endsInEnd (Line.endsInEnd_code hl hone) htail hs
  · intro body hbody r hr
    rw [Analysis.returnsOf_eq []] at hr
    obtain ⟨s, hs, rfl⟩ := List.mem_map.1 hr
    obtain ⟨hs, hreturn⟩ := List.mem_filter.1 hs
    refine List.mem_map.2 ⟨(l.index, s), List.mem_filter.2 ⟨?_, ?_⟩, rfl⟩
    · exact List.mem_flatMap.2 ⟨l, hl, List.mem_map_of_mem hs⟩
    · simp [hreturn, hbody]
  · obtain ⟨i, hi⟩ := List.mem_iff_getElem?.1 hl
    obtain rfl : l.index = i := hdoc.index_eq hi
    refine Analyzer.judgesWords_of_contains (by simp [Rule.all]) rfl hi ?_
    simp [ScopeTree.contains]

/-- A function on one line in a function of several lines. -/
def innerOneLine : List Char :=
  "def f():\n@Pure static def g() -> Int: return 1 end // one\nend".toList

/-- The `return` is allowed, because the outer function is around it. -/
theorem Analyzer.one_line_functions_are_bodiless_inner :
    let a := unresolving.prepare innerOneLine none
    ∃ l ∈ a.document.lines, IsOneLineFunction l.codeTokens ∧ a.Bodiless l ∧
      (∃ body, a.tree.functionAt? l.index = some body ∧ body.name = some "f") ∧
      unresolving.JudgesWords innerOneLine none .returnOutsideFunction l.index l.codeTokens
        ["return"] (∃ f ∈ a.tree.around l.index, f.kind = .function) := by
  intro a
  have hread : (a.document.lines[1]?.map fun l =>
      (decide (IsOneLineFunction l.codeTokens), (a.tree.functionAt? l.index).map Frame.name)) =
        some (true, some (some "f")) := by
    decide +kernel
  obtain ⟨l, hl, hread⟩ := Option.map_eq_some_iff.1 hread
  simp only [Prod.mk.injEq, decide_eq_true_eq, Option.map_eq_some_iff] at hread
  have hmem := List.mem_of_getElem? hl
  obtain ⟨hbodiless, hjudged⟩ :=
    one_line_functions_are_bodiless unresolving innerOneLine none l hmem hread.1
  exact ⟨l, hmem, hread.1, hbodiless, hread.2, hjudged⟩

/-- A function on one line is not in the tree. Its `return` is reported, and its written type and
the type of what it returns are both lost. -/
theorem Analyzer.one_line_function_is_lost :
    let a := unresolving.prepare "def f() -> Int: return 1 end".toList none
    ∃ l ∈ a.document.lines, IsOneLineFunction l.codeTokens ∧
      (∀ f ∈ a.tree.frames.toList, f.kind ≠ .function) ∧
      Rule.misplacedIn a ["return"] .function l ≠ none ∧
      ∃ d ∈ a.table.declarations, d.name = "f" ∧ d.line = l.index ∧ d.returnText = none ∧
        a.returnType d = pure .any := by
  intro a
  have hread : (a.document.lines[0]?.bind fun l => a.table.declarations[0]?.map fun d =>
      decide (IsOneLineFunction l.codeTokens) &&
        (Rule.misplacedIn a ["return"] .function l).isSome && d.name == "f" && d.line == l.index &&
        d.returnText.isNone && d.body.isNone) = some true := by
    decide +kernel
  obtain ⟨l, hl, hread⟩ := Option.bind_eq_some_iff.1 hread
  obtain ⟨d, hd, hread⟩ := Option.map_eq_some_iff.1 hread
  simp only [Bool.and_eq_true, decide_eq_true_eq, Option.isNone_iff_eq_none, beq_iff_eq] at hread
  obtain ⟨⟨⟨⟨⟨hone, hreported⟩, hname⟩, hline⟩, htype⟩, hbody⟩ := hread
  refine ⟨l, List.mem_of_getElem? hl, hone, by decide +kernel,
    Option.isSome_iff_ne_none.1 hreported, d, List.mem_of_getElem? hd, hname, hline, htype,
    Analysis.returnTypeIn_of_no_body ?_⟩
  rw [Analysis.functionBody?, hbody]
  rfl

end Polyloft
