import Polyloft.Document.Comment
import Polyloft.Proofs.BlankLine.Document
import Polyloft.Proofs.Declaration.OneLine
import Polyloft.Proofs.Parameter.Render
import Polyloft.Proofs.Query.Agreement
import Polyloft.Proofs.Token.Masked

/-!
# Polyloft.Proofs.Query.Documentation

What documents a declaration: the comments read upwards from its line. Every line of what is read is
written on a line above. If comment marks stand apart from code there, it is written inside of a
comment, and between the two lines there are only blank lines, annotations and lines without code
(`documentation_is_comment_text`).

The marks are looked for in the raw text. So where they do not stand apart the code around them is
taken along, and operators that look like a mark are taken for one (`code_documents_next_line`).

## Proof shape

The lines above a line are lexed one behind the other, so a comment that is open where a line starts
is open behind the line above it (`LexedAbove`). Upwards from a line that only ends a comment the
comment therefore stays open up to the line with the opening mark, and every line passed on the way
is inside of it (`LexedAbove.isComment_of_closing`). Which line a text comes from is then followed by
the recursion of the scan (`writtenAbove_of_mem_commentTexts`).
-/

namespace Polyloft

open Polyloft.Text

/-! ### Texts -/

namespace Text

/-- Blanks around a text are trimmed off. -/
theorem strip_between_blanks {front cs back : List Char} (hfront : ∀ c ∈ front, isBlank c = true)
    (hback : ∀ c ∈ back, isBlank c = true) : strip (front ++ cs ++ back) = strip cs := by
  have hstart : stripStart (front ++ (cs ++ back)) = stripStart (cs ++ back) :=
    List.dropWhile_append_of_pos hfront
  rw [List.append_assoc, strip, hstart, stripStart, List.dropWhile_append]
  split
  · rename_i hempty
    rw [List.isEmpty_iff] at hempty
    rw [strip, stripStart, hempty, List.dropWhile_eq_nil_iff.2 hback]
  · exact dropEndWhile_append_of_forall _ hback

theorem strip_isInfix (cs : List Char) : strip cs <:+: cs := by
  obtain ⟨front, back, heq, -⟩ := exists_strip cs
  exact ⟨front, back, by rw [List.append_assoc]; exact heq.symm⟩

/-- Trimming keeps two slashes at the start. -/
theorem slashes_prefix_strip {cs : List Char} (h : ['/', '/'] <+: stripStart cs) :
    ['/', '/'] <+: strip cs := by
  obtain ⟨rest, hrest⟩ := h
  rw [strip, stripEnd, ← hrest]
  refine ⟨dropEndWhile isBlank rest, ?_⟩
  have hslash : isBlank '/' = false := by decide
  simp [dropEndWhile_cons, hslash]

end Text

/-! ### Comment marks -/

theorem hasPair_of_suffix {c d : Char} {cs ds : List Char} (hsuffix : ds <:+ cs)
    (h : hasPair c d ds = true) : hasPair c d cs = true := by
  obtain ⟨front, rfl⟩ := hsuffix
  induction front with
  | nil => exact h
  | cons x front ih => rw [List.cons_append, hasPair, ih, Bool.or_true]

/-- A comment that is open behind a text is opened in the text. -/
theorem hasPair_of_lexFrom {line column : Nat} {cs : List Char}
    (h : (lexFrom line column cs).2 = true) : hasPair '/' '*' cs = true := by
  fun_induction lexFrom line column cs with
  | case1 => simp at h
  | case2 column c cs _ ih => exact hasPair_of_suffix (List.suffix_cons c cs) (ih h)
  | case3 column c cs hskip lexeme token rest ih =>
      rw [Bool.or_eq_true] at h
      rcases h with hopens | hrest
      · have hreads := Lexeme.reads_at c cs
        change Lexeme.Reads c cs lexeme at hreads
        generalize lexeme = x at hreads hopens
        cases hreads with
        | openComment hc hcs => simp [hc, hcs, hasPair]
        | lineComment | closedComment | closedString | openString => simp at hopens
        | plain hstart hquote hkind hopen => simp_all
      · exact hasPair_of_suffix ((List.drop_suffix ..).trans (List.suffix_cons c cs)) (ih hrest)

/-- A comment that comes first in a text starts with one of the marks. -/
theorem marks_of_lexFrom {line column : Nat} {cs : List Char} {t : Token}
    (h : (lexFrom line column cs).1.head? = some t) (hkind : t.kind = .comment) :
    ['/', '/'] <+: stripStart cs ∨ hasPair '/' '*' cs = true := by
  fun_induction lexFrom line column cs with
  | case1 => simp at h
  | case2 column c cs hskip ih =>
      rw [stripStart, List.dropWhile_cons_of_pos (isBlank_of_isSkipped hskip)]
      exact (ih h).imp_right (hasPair_of_suffix (List.suffix_cons c cs))
  | case3 column c cs hskip lexeme token rest ih =>
      obtain rfl : token = t := Option.some.inj h
      have hreads := Lexeme.reads_at c cs
      change Lexeme.Reads c cs lexeme at hreads
      have hcomment : lexeme.kind = .comment := hkind
      generalize lexeme = x at hreads hcomment
      have hslash : isBlank '/' = false := by decide
      cases hreads with
      | lineComment hc hcs =>
          refine .inl ?_
          rw [hc, hcs, stripStart, List.dropWhile_cons_of_neg (by simp [hslash])]
          exact ⟨_, rfl⟩
      | closedComment hc hcs | openComment hc hcs => exact .inr (by simp [hc, hcs, hasPair])
      | closedString | openString => simp at hcomment
      | plain _ _ hother => exact absurd hcomment hother

/-! ### Comment lines -/

namespace Line

/-- Does a line open a block comment, end one or start a line comment, as far as its raw text
tells? -/
def IsMarked (l : Line) : Prop :=
  ['/', '/'] <+: strip l.text ∨ ['*', '/'] <:+ strip l.text ∨ hasPair '/' '*' l.text = true

instance (l : Line) : Decidable l.IsMarked :=
  inferInstanceAs (Decidable (_ ∨ _ ∨ _))

/-- Marks of comments are written on a line only if all of it is one comment. -/
def MarksApart (l : Line) : Prop :=
  l.IsMarked → l.tokens.map Token.kind = [.comment]

instance (l : Line) : Decidable l.MarksApart :=
  inferInstanceAs (Decidable (_ → _))

/-- Between a declaration and its comments: a blank line, an annotation or a line without code. -/
def IsPassedOver (l : Line) : Prop :=
  strip l.text = [] ∨ (strip l.text).head? = some '@' ∨ l.codeTokens = []

/-- What is written on a line stands in a comment. -/
def IsComment (l : Line) : Prop :=
  l.codeTokens = [] ∧
    (strip l.text ≠ [] → ∃ t ∈ l.tokens, t.kind = .comment ∧ strip l.text <:+: t.text.toList)

theorem codeTokens_of_single {l : Line} {t : Token} (htokens : l.tokens = [t])
    (hkind : t.kind = .comment) : l.codeTokens = [] := by
  rw [codeTokens, htokens, Polyloft.codeTokens, List.filter_cons_of_neg (by simp [hkind]),
    List.filter_nil]

/-- If a comment is the only token of a line, all but blanks is in the comment. -/
theorem isComment_of_single {text : List Char} {index : Nat} {flag : Bool} {t : Token}
    (htokens : (lexLine text index flag).1 = [t]) (hkind : t.kind = .comment) :
    IsComment ⟨index, text, (lexLine text index flag).1⟩ := by
  refine ⟨codeTokens_of_single htokens hkind, fun _ => ⟨t, by simp [htokens], hkind, ?_⟩⟩
  have hblank : ¬(flag = true ∧ strip text = []) := by
    rintro ⟨rfl, hstrip⟩
    rw [(lexLine_blank index hstrip).1] at htokens
    simp at htokens
  have hlossless := (tiles_lexLine index hblank).lossless
  rw [htokens] at hlossless
  obtain ⟨-, hslice⟩ := hlossless.slice t (List.mem_singleton_self t)
  have hblankAt {j : Nat} {c : Char} (hc : text[j]? = some c) (hj : j < t.column ∨ t.stop ≤ j) :
      Text.isBlank c = true := by
    refine isBlank_of_isSkipped (hlossless.separated j c hc ?_)
    rw [List.forall_mem_singleton, Token.StandsOver]
    omega
  have htext : text = text.take t.column ++ t.text.toList ++ text.drop t.stop := by
    have hcolumn : t.column ≤ t.stop := Nat.le_add_right _ _
    rw [hslice, Span.slice, List.append_assoc]
    dsimp only
    rw [← Nat.add_sub_cancel' hcolumn, ← List.drop_drop, Nat.add_sub_cancel_left,
      List.take_append_drop, List.take_append_drop]
  have hstrip : strip text = strip t.text.toList := by
    refine (congrArg strip htext).trans (strip_between_blanks ?_ ?_)
    · intro c hc
      obtain ⟨j, hj, rfl⟩ := List.mem_take_iff_getElem.1 hc
      exact hblankAt (j := j) (List.getElem?_eq_getElem _) (.inl (by omega))
    · intro c hc
      obtain ⟨j, hj⟩ := List.mem_iff_getElem?.1 hc
      rw [List.getElem?_drop] at hj
      exact hblankAt hj (.inr (Nat.le_add_right _ _))
  dsimp only
  rw [hstrip]
  exact strip_isInfix _

theorem MarksApart.exists_single {l : Line} (h : l.MarksApart) (hmarked : l.IsMarked) :
    ∃ t, l.tokens = [t] ∧ t.kind = .comment := by
  obtain ⟨t, htokens, hkind⟩ := List.map_eq_singleton_iff.1 (h hmarked)
  exact ⟨t, htokens, hkind⟩

/-- A line that ends inside of a block comment it does not open is inside of the comment from its
start. -/
theorem open_of_not_hasPair {text : List Char} {index : Nat} {flag : Bool}
    (hopen : (lexLine text index flag).2 = true) (hpair : hasPair '/' '*' text = false) :
    flag = true ∧ IsComment ⟨index, text, (lexLine text index flag).1⟩ := by
  rw [lexLine] at *
  cases flag with
  | false =>
      have := hasPair_of_lexFrom hopen
      simp [hpair] at this
  | true =>
      refine ⟨rfl, ?_⟩
      simp only [if_true] at *
      split at hopen
      · rename_i hclose
        split
        · rename_i hstrip
          exact ⟨rfl, fun h => absurd hstrip h⟩
        · refine ⟨codeTokens_of_single rfl rfl, fun _ => ⟨_, List.mem_singleton_self _, rfl, ?_⟩⟩
          dsimp only
          rw [String.toList_ofList]
          exact strip_isInfix text
      · have := hasPair_of_suffix (List.drop_suffix ..) (hasPair_of_lexFrom hopen)
        simp [hpair] at this

/-- If a comment is the only token of a line and none of the opening marks is written on the line,
the line starts inside of the comment. -/
theorem open_of_single {text : List Char} {index : Nat} {flag : Bool} {t : Token}
    (htokens : (lexLine text index flag).1 = [t]) (hkind : t.kind = .comment)
    (hslashes : ¬['/', '/'] <+: strip text) (hpair : hasPair '/' '*' text = false) :
    flag = true := by
  cases flag with
  | true => rfl
  | false =>
      rcases marks_of_lexFrom (congrArg List.head? htokens) hkind with h | h
      · exact absurd (slashes_prefix_strip h) hslashes
      · simp [hpair] at h

end Line

/-! ### Lines above -/

/-- Lines lexed one behind the other, the last one first. The flag says whether a comment is open
behind them. -/
inductive LexedAbove : Bool → List Line → Prop where
  | nil : LexedAbove false []
  | cons {flag : Bool} {above : List Line} (text : List Char) (index : Nat)
      (h : LexedAbove flag above) :
      LexedAbove (lexLine text index flag).2
        (⟨index, text, (lexLine text index flag).1⟩ :: above)

namespace LexedAbove

variable {flag : Bool} {above : List Line}

theorem take_numberLines (h : LexedAbove flag above) (texts : List (List Char)) (index n : Nat) :
    ∃ flag', LexedAbove flag'
      (((numberLines index texts (lexLines index flag texts)).take n).reverse ++ above) := by
  induction texts generalizing index n flag above with
  | nil => exact ⟨flag, by simpa [numberLines] using h⟩
  | cons text texts ih =>
      cases n with
      | zero => exact ⟨flag, by simpa using h⟩
      | succ n =>
          obtain ⟨flag', h'⟩ := ih (.cons text index h) (index + 1) n
          refine ⟨flag', ?_⟩
          rw [lexLines, numberLines, List.take_succ_cons, List.reverse_cons, List.append_assoc]
          exact h'

/-- The lines above a line of a document. -/
theorem linesAbove (text : List Char) (uri : Option String) (n : Nat) :
    ∃ flag, LexedAbove flag ((Document.ofText text uri).linesAbove n) := by
  obtain ⟨flag, h⟩ := nil.take_numberLines (splitLines (normaliseNewlines text)) 0 n
  rw [List.append_nil] at h
  exact ⟨flag, h⟩

theorem drop (h : LexedAbove flag above) (n : Nat) : ∃ flag', LexedAbove flag' (above.drop n) := by
  induction h generalizing n with
  | nil => exact ⟨false, by simpa using nil⟩
  | cons text index h ih =>
      cases n with
      | zero => exact ⟨_, h.cons text index⟩
      | succ n => exact ih n

/-- A line on which marks stand apart is a comment. -/
theorem isComment {line : Line} (h : LexedAbove flag (line :: above)) (hmarked : line.IsMarked)
    (hapart : line.MarksApart) : line.IsComment := by
  obtain ⟨t, htokens, hkind⟩ := hapart.exists_single hmarked
  cases h
  exact Line.isComment_of_single htokens hkind

end LexedAbove

/-! ### Block comments -/

/-- The lines up to the one that opens a block comment. -/
def blockLines : List Line → List Line
  | [] => []
  | line :: above =>
    if hasPair '/' '*' line.text then [line] else line :: blockLines above

theorem blockComment_eq (lines : List Line) :
    blockComment lines =
      ((blockLines lines).map fun l => blockCommentText l.text,
        lines.drop (blockLines lines).length) := by
  induction lines with
  | nil => rfl
  | cons line above ih =>
      rw [blockComment, blockLines]
      split
      · rfl
      · rw [ih]
        rfl

theorem blockLines_append (lines : List Line) :
    blockLines lines ++ lines.drop (blockLines lines).length = lines := by
  induction lines with
  | nil => rfl
  | cons line above ih =>
      rw [blockLines]
      split
      · rfl
      · exact congrArg (line :: ·) ih

/-- Upwards from a line behind which a comment is open, the lines are comments up to the one with
the opening mark, and that one is if its marks stand apart. -/
theorem LexedAbove.isComment_of_mem_blockLines {flag : Bool} {lines : List Line}
    (h : LexedAbove flag lines) (hopen : flag = true) :
    ∀ l ∈ blockLines lines, l.MarksApart → l.IsComment := by
  induction h with
  | nil => simp [blockLines]
  | cons text index habove ih =>
      rw [blockLines]
      split
      · rename_i hpair
        rw [List.forall_mem_singleton]
        exact (habove.cons text index).isComment (.inr (.inr hpair))
      · rename_i hpair
        obtain ⟨hflag, hcomment⟩ :=
          Line.open_of_not_hasPair hopen (Bool.eq_false_iff.2 hpair)
        rw [List.forall_mem_cons]
        exact ⟨fun _ => hcomment, ih hflag⟩

/-- The same from a line on which a block comment ends. -/
theorem LexedAbove.isComment_of_closing {flag : Bool} {line : Line} {above : List Line}
    (h : LexedAbove flag (line :: above)) (hslashes : ¬['/', '/'] <+: strip line.text)
    (hclosing : ['*', '/'] <:+ strip line.text) (hapart : line.MarksApart) :
    ∀ l ∈ blockLines (line :: above), l.MarksApart → l.IsComment := by
  have hcomment := h.isComment (.inr (.inl hclosing)) hapart
  obtain ⟨t, htokens, hkind⟩ := hapart.exists_single (.inr (.inl hclosing))
  rw [blockLines]
  split
  · rw [List.forall_mem_singleton]
    exact fun _ => hcomment
  · rename_i hpair
    rw [List.forall_mem_cons]
    refine ⟨fun _ => hcomment, ?_⟩
    cases h with
    | cons text index habove =>
        exact habove.isComment_of_mem_blockLines
          (Line.open_of_single htokens hkind hslashes (Bool.eq_false_iff.2 hpair))

/-! ### What is read upwards -/

theorem blockCommentText_isInfix (cs : List Char) : blockCommentText cs <:+: strip cs := by
  have hopening : ∀ ds : List Char, dropBlockOpening ds <:+: ds := by
    intro ds
    unfold dropBlockOpening
    split
    · exact ⟨['/', '*', '*'], [], by simp⟩
    · exact ⟨['/', '*'], [], by simp⟩
    · exact List.infix_refl _
  have hclosing : ∀ ds : List Char, dropBlockClosing ds <:+: ds := by
    intro ds
    unfold dropBlockClosing
    split
    · exact (List.take_prefix ..).isInfix
    · exact List.infix_refl _
  have hstar : ∀ ds : List Char, dropStar ds <:+: ds := by
    intro ds
    unfold dropStar
    split
    · exact (List.suffix_cons ..).isInfix
    · exact List.infix_refl _
  exact (strip_isInfix _).trans ((hstar _).trans ((strip_isInfix _).trans ((hclosing _).trans
    (hopening _))))

/-- A text is written on one of some lines, which are listed from the nearest one upwards. If comment
marks stand apart from there on, it is written in a comment, and the lines nearer are passed over. -/
def WrittenAbove (part : List Char) (lines : List Line) : Prop :=
  ∃ below l rest, lines = below ++ l :: rest ∧ part <:+: l.text ∧
    ((∀ x ∈ below ++ [l], x.MarksApart) →
      (∃ t ∈ l.tokens, t.kind = .comment ∧ part <:+: t.text.toList) ∧
        ∀ x ∈ below, x.IsPassedOver)

namespace WrittenAbove

variable {part : List Char} {lines : List Line}

theorem append (h : WrittenAbove part lines) (passed : List Line)
    (hpassed : (∀ x ∈ passed, x.MarksApart) → ∀ x ∈ passed, x.IsPassedOver) :
    WrittenAbove part (passed ++ lines) := by
  obtain ⟨below, l, rest, rfl, hpart, hcomment⟩ := h
  refine ⟨passed ++ below, l, rest, by rw [List.append_assoc], hpart, fun hapart => ?_⟩
  rw [List.append_assoc, List.forall_mem_append] at hapart
  obtain ⟨htoken, hbelow⟩ := hcomment hapart.2
  exact ⟨htoken, List.forall_mem_append.2 ⟨hpassed hapart.1, hbelow⟩⟩

/-- What is written on a line in a comment, if all lines down to it are comments. -/
theorem of_isComment (below : List Line) {rest : List Line} {l : Line}
    (hpart : part <:+: strip l.text) (hne : part ≠ [])
    (hcomment : (∀ x ∈ below ++ [l], x.MarksApart) → ∀ x ∈ below ++ [l], x.IsComment) :
    WrittenAbove part (below ++ l :: rest) := by
  refine ⟨below, l, rest, rfl, hpart.trans (strip_isInfix _), fun hapart => ?_⟩
  obtain ⟨hbelow, hl⟩ := List.forall_mem_append.1 (hcomment hapart)
  have hstrip : strip l.text ≠ [] := by
    intro hnil
    rw [hnil, List.infix_nil] at hpart
    exact hne hpart
  obtain ⟨t, ht, hkind, hwithin⟩ := (hl l (List.mem_singleton_self l)).2 hstrip
  exact ⟨⟨t, ht, hkind, hpart.trans hwithin⟩, fun x hx => .inr (.inr (hbelow x hx).1)⟩

end WrittenAbove

theorem exists_blockLines_cons (line : Line) (above : List Line) :
    ∃ more, blockLines (line :: above) = line :: more := by
  rw [blockLines]
  split
  · exact ⟨_, rfl⟩
  · exact ⟨_, rfl⟩

/-- Where each text comes from that is read upwards. -/
theorem writtenAbove_of_mem_commentTexts {found flag : Bool} {lines : List Line} {part : List Char}
    (hlexed : LexedAbove flag lines) (hpart : part ∈ commentTexts found lines) (hne : part ≠ []) :
    WrittenAbove part lines := by
  fun_induction commentTexts found lines generalizing flag with
  | case1 => simp at hpart
  | case2 found line above text hskip =>
      rename_i ih
      have habove : ∃ flag', LexedAbove flag' above := hlexed.drop 1
      refine (ih habove.choose_spec hpart).append [line] fun _ => ?_
      rw [List.forall_mem_singleton]
      rw [Bool.or_eq_true, Bool.and_eq_true, decide_eq_true_eq, beq_iff_eq] at hskip
      exact hskip.imp_right fun hat => .inl hat.1
  | case3 found line above text hskip hslashes =>
      rename_i ih
      have hmarked : line.IsMarked := .inl (List.isPrefixOf_iff_prefix.1 hslashes)
      rcases List.mem_cons.1 hpart with rfl | hpart
      · refine .of_isComment [] ?_ hne ?_
        · exact (strip_isInfix _).trans (List.drop_suffix ..).isInfix
        · rw [List.nil_append, List.forall_mem_singleton, List.forall_mem_singleton]
          exact hlexed.isComment hmarked
      · have habove : ∃ flag', LexedAbove flag' above := hlexed.drop 1
        refine (ih habove.choose_spec hpart).append [line] ?_
        rw [List.forall_mem_singleton, List.forall_mem_singleton]
        exact fun hapart => .inr (.inr (hlexed.isComment hmarked hapart).1)
  | case4 found line above text hskip hslashes hclosing =>
      rename_i ih
      have hcomment := hlexed.isComment_of_closing
        (fun h => hslashes (List.isPrefixOf_iff_prefix.2 h))
        (List.reverse_prefix.1 (List.isPrefixOf_iff_prefix.1 hclosing))
      obtain ⟨more, hmore⟩ := exists_blockLines_cons line above
      have hsplit := blockLines_append (line :: above)
      rw [blockComment_eq] at hpart ih
      rcases List.mem_append.1 hpart with hpart | hpart
      · obtain ⟨l, hl, rfl⟩ := List.mem_map.1 hpart
        obtain ⟨below, rest, hblock⟩ := List.append_of_mem hl
        rw [← hsplit, hblock, List.append_assoc]
        refine .of_isComment below (blockCommentText_isInfix l.text) hne fun hapart x hx => ?_
        have hline : line ∈ below ++ [l] := by
          rw [hmore] at hblock
          cases below with
          | nil => simp [(List.cons.inj hblock).1]
          | cons first below => simp [(List.cons.inj hblock).1]
        refine hcomment (hapart line hline) x ?_ (hapart x hx)
        rw [hblock]
        exact List.mem_append.2 ((List.mem_append.1 hx).imp_right (by simp +contextual))
      · obtain ⟨flag', hrest⟩ := hlexed.drop (blockLines (line :: above)).length
        rw [← hsplit]
        refine (ih hrest hpart).append _ fun hapart x hx => .inr (.inr ?_)
        refine (hcomment (hapart line ?_) x hx (hapart x hx)).1
        rw [hmore]
        exact List.mem_cons_self ..
  | case5 => simp at hpart

/-! ### Documents -/

namespace Document

variable {text : List Char} {uri : Option String}

/-- No line of a document has a line feed in it. -/
theorem newline_notMem {l : Line} (hl : l ∈ (ofText text uri).lines) : '\n' ∉ l.text := by
  obtain ⟨i, hi⟩ := List.mem_iff_getElem?.1 hl
  exact not_mem_of_mem_splitOnChar (List.mem_of_getElem? (getElem?_numberLines hi).2.1)

/-- What is written above a line, told by the numbers of the lines. -/
theorem exists_of_writtenAbove {doc : Document} {line : Nat} {part : List Char}
    (h : WrittenAbove part (doc.linesAbove line)) :
    ∃ m l, m < line ∧ doc.lines[m]? = some l ∧ part <:+: l.text ∧
      ((∀ k x, m ≤ k → k < line → doc.lines[k]? = some x → x.MarksApart) →
        (∃ t ∈ l.tokens, t.kind = .comment ∧ part <:+: t.text.toList) ∧
          ∀ k x, m < k → k < line → doc.lines[k]? = some x → x.IsPassedOver) := by
  obtain ⟨below, l, rest, hlines, hpart, hcomment⟩ := h
  have htake : doc.lines.take line = rest.reverse ++ l :: below.reverse := by
    rw [linesAbove, List.reverse_eq_iff] at hlines
    simpa using hlines
  have hat {k : Nat} (hk : k < line) :
      doc.lines[k]? = (rest.reverse ++ l :: below.reverse)[k]? := by
    rw [← htake, List.getElem?_take_of_lt hk]
  have hlength : rest.length + below.length < line := by
    have := congrArg List.length htake
    simp at this
    omega
  refine ⟨rest.length, l, by omega, ?_, hpart, fun hapart => ?_⟩
  · rw [hat (by omega), List.getElem?_append_right (by simp)]
    simp
  · refine (hcomment ?_).imp_right fun hpassed k x hmk hk hx => ?_
    · intro x hx
      have hx' : x ∈ l :: below.reverse := by simpa [or_comm] using hx
      obtain ⟨j, hj⟩ := List.mem_iff_getElem?.1 hx'
      have hjlt := (List.getElem?_eq_some_iff.1 hj).1
      rw [List.length_cons, List.length_reverse] at hjlt
      refine hapart (rest.length + j) x (by omega) (by omega) ?_
      rw [hat (by omega), List.getElem?_append_right (by simp)]
      simpa using hj
    · rw [hat hk, List.getElem?_append_right (by simpa using hmk.le), List.length_reverse,
        List.getElem?_cons, if_neg (by omega)] at hx
      exact hpassed x (List.mem_reverse.1 (List.mem_of_getElem? hx))

/-- Reading the documentation of a line succeeds, from the first line to the one behind the last. Each
line of what is read is written on a line above. If from there on comment marks stand apart from code,
it is written in a comment token of that line, and the lines between are blank, annotations or without
code. -/
theorem documentation_is_comment_text (text : List Char) (uri : Option String) {line : Nat}
    (hline : line ≤ (ofText text uri).size) :
    let doc := ofText text uri
    ∃ documentation, doc.commentAbove line = .ok documentation ∧
      ∀ shown, documentation = some shown → ∀ part ∈ splitLines shown.toList, part ≠ [] ∧
        ∃ m l, m < line ∧ doc.lines[m]? = some l ∧ part <:+: l.text ∧
          ((∀ k x, m ≤ k → k < line → doc.lines[k]? = some x → x.MarksApart) →
            (∃ t ∈ l.tokens, t.kind = .comment ∧ part <:+: t.text.toList) ∧
              ∀ k x, m < k → k < line → doc.lines[k]? = some x → x.IsPassedOver) := by
  intro doc
  refine ⟨commentOf (doc.linesAbove line), ?_, ?_⟩
  · rw [commentAbove, if_neg (Int.not_lt.2 (Int.ofNat_le.2 hline)), Int.toNat_natCast]
  intro shown hshown part hpart
  obtain ⟨flag, hlexed⟩ := LexedAbove.linesAbove text uri line
  have hwritten : ∀ part ∈ (commentTexts false (doc.linesAbove line)).reverse.filter (· ≠ []),
      part ≠ [] ∧ WrittenAbove part (doc.linesAbove line) := by
    intro part hpart
    obtain ⟨hmem, hne⟩ := List.mem_filter.1 hpart
    rw [decide_eq_true_eq] at hne
    exact ⟨hne, writtenAbove_of_mem_commentTexts hlexed (List.mem_reverse.1 hmem) hne⟩
  rw [commentOf] at hshown
  split at hshown
  · simp at hshown
  · rename_i hparts
    obtain rfl := Option.some.inj hshown
    rw [String.toList_ofList, splitLines_joinLines (fun h => hparts h) ?_] at hpart
    · obtain ⟨hne, habove⟩ := hwritten part hpart
      exact ⟨hne, exists_of_writtenAbove habove⟩
    · intro part hpart hnewline
      obtain ⟨m, l, -, hl, hwithin, -⟩ := exists_of_writtenAbove (hwritten part hpart).2
      exact newline_notMem (List.mem_of_getElem? hl) (hwithin.subset hnewline)

/-- A comment above an annotation. -/
def annotated : List Char :=
  "/**\n * Greets someone.\n */\n@Deprecated\ndef greet():\nend".toList

theorem documentation_is_comment_text_annotated :
    let doc := ofText annotated none
    4 ≤ doc.size ∧ (∀ x ∈ doc.lines, x.MarksApart) ∧
      doc.commentAbove 4 = .ok (some "Greets someone.") ∧
      ∃ m l, m < 4 ∧ doc.lines[m]? = some l ∧
        (∃ t ∈ l.tokens, t.kind = .comment ∧ "Greets someone.".toList <:+: t.text.toList) ∧
        ∀ k x, m < k → k < 4 → doc.lines[k]? = some x → x.IsPassedOver := by
  intro doc
  have hchecked : 4 ≤ doc.size ∧ (∀ x ∈ doc.lines, x.MarksApart) ∧
      (doc.commentAbove 4).toOption = some (some "Greets someone.") ∧
      "Greets someone.".toList ∈ splitLines "Greets someone.".toList := by
    decide +kernel
  obtain ⟨hsize, hapart, hshown, hpart⟩ := hchecked
  have hok := Analysis.eq_ok_of_toOption hshown
  obtain ⟨documentation, hdocumentation, hlines⟩ := documentation_is_comment_text annotated none hsize
  have heq : documentation = some "Greets someone." := Except.ok.inj (hdocumentation.symm.trans hok)
  obtain ⟨-, m, l, hm, hl, -, hcomment⟩ := hlines _ heq _ hpart
  exact ⟨hsize, hapart, hok, m, l, hm, hl,
    hcomment fun k x _ _ hx => hapart x (List.mem_of_getElem? hx)⟩

/-- A line of code that ends with a comment. -/
def codeThenComment : List Char :=
  "var x = 1 /* note */\nvar y = 2".toList

/-- Two operators at the end of a line, which are no comment mark. -/
def operatorsAtEnd : List Char :=
  "var x = a */\nvar y = 2".toList

/-- Code in front of a comment is taken along, and operators are taken for the end of a comment where
there is none: what documents the next line is in no comment. -/
theorem code_documents_next_line :
    let doc := ofText codeThenComment none
    let doc' := ofText operatorsAtEnd none
    (doc.commentAbove 1 = .ok (some "var x = 1 /* note") ∧
      ∀ l ∈ doc.lines, ∀ t ∈ l.tokens, t.kind = .comment →
        ¬"var x = 1 /* note".toList <:+: t.text.toList) ∧
      doc'.commentAbove 1 = .ok (some "var x = a") ∧
        ∀ l ∈ doc'.lines, ∀ t ∈ l.tokens, t.kind ≠ .comment := by
  intro doc doc'
  have hchecked : (doc.commentAbove 1).toOption = some (some "var x = 1 /* note") ∧
      (∀ l ∈ doc.lines, ∀ t ∈ l.tokens, t.kind = .comment →
        ¬"var x = 1 /* note".toList <:+: t.text.toList) ∧
      (doc'.commentAbove 1).toOption = some (some "var x = a") ∧
        ∀ l ∈ doc'.lines, ∀ t ∈ l.tokens, t.kind ≠ .comment := by
    decide +kernel
  obtain ⟨hcode, hapart, hoperators, hnone⟩ := hchecked
  exact ⟨⟨Analysis.eq_ok_of_toOption hcode, hapart⟩, Analysis.eq_ok_of_toOption hoperators, hnone⟩

end Document

end Polyloft
