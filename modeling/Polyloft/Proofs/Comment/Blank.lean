import Polyloft.Proofs.Token.Front

/-!
# Polyloft.Proofs.Comment.Blank

Lines whose comments are blanked. No lexeme but a comment reaches into a comment, so the lexeme at a
place is the same when the comments behind it are blanked
(`Lexeme.at_take_append_blankComments`). By induction on the lexer, what the scanner shows of a line
decides its code tokens (`codeTokens_lexLine`) and its code, where a blank line inside of a comment
has other blanks only (`code_lexLine`).
-/

namespace Polyloft

open Polyloft.Text

/-! ### Blanked comments -/

/-- The shown characters as a text, with a space at each hidden one. -/
def blankHidden (shown : List (Option Char)) : List Char :=
  shown.map fun c => c.getD ' '

@[simp] theorem blankHidden_append (s t : List (Option Char)) :
    blankHidden (s ++ t) = blankHidden s ++ blankHidden t :=
  List.map_append

@[simp] theorem blankHidden_map_some (cs : List Char) : blankHidden (cs.map some) = cs := by
  rw [blankHidden, List.map_map]
  exact List.map_id cs

@[simp] theorem blankHidden_map_none (cs : List Char) :
    blankHidden (cs.map fun _ => none) = List.replicate cs.length ' ' := by
  simp [blankHidden, List.map_const']

/-- The code at hand with its comments blanked. -/
def blankComments (cs : List Char) : List Char :=
  blankHidden (Region.code.scan cs).1

section

open Region

theorem blankComments_of_isPlain {c : Char} (h : isPlain c = true) (cs : List Char) :
    blankComments (c :: cs) = c :: blankComments cs := by
  rw [blankComments, scan_code_of_isPlain h]
  rfl

/-- The first character stays or, where it starts a comment, is blanked. -/
theorem exists_blankComments_cons (c : Char) (cs : List Char) :
    ∃ rest, blankComments (c :: cs) = c :: rest ∨ blankComments (c :: cs) = ' ' :: rest := by
  rw [blankComments, scan_cons]
  refine ⟨blankHidden (scan (code.next c cs.head?) cs).1, ?_⟩
  by_cases h : startsComment c cs.head? = true
  · exact .inr (by simp [hides, h, blankHidden])
  · exact .inl (by simp [hides, h, blankHidden])

/-- Comments are blanked behind the front of a text. -/
theorem sameFront_blankComments (cs : List Char) : SameFront (blankComments cs) cs := by
  induction cs with
  | nil => exact .stop rfl rfl
  | cons c cs ih =>
      by_cases hc : isPlain c = true
      · rw [blankComments_of_isPlain hc]
        exact .cons c ih
      · have hstop : goesOn c = false := goesOn_eq_false_of_not_isPlain (by simpa using hc)
        refine .stop ?_ hstop
        obtain ⟨rest, heq | heq⟩ := exists_blankComments_cons c cs
        · rw [heq]
          exact hstop
        · rw [heq]
          rfl

theorem startsComment_blankComments {c : Char} {cs : List Char}
    (h : startsComment c cs.head? = false) : startsComment c (blankComments cs).head? = false := by
  cases cs with
  | nil => exact h
  | cons d cs =>
      obtain ⟨rest, heq | heq⟩ := exists_blankComments_cons d cs
      · rw [heq]
        exact h
      · rw [heq]
        simp [startsComment]

/-- A lexeme does not depend on comments behind it. -/
theorem Lexeme.at_take_append_blankComments {c : Char} {cs : List Char}
    (hkind : (Lexeme.at c cs).kind ≠ .comment) :
    Lexeme.at c (cs.take (Lexeme.at c cs).tail ++ blankComments (cs.drop (Lexeme.at c cs).tail)) =
      Lexeme.at c cs := by
  refine Lexeme.at_take_append hkind (sameFront_blankComments _) startsComment_blankComments ?_
  intro hnil
  rw [hnil]
  rfl

/-! ### Lexing -/

theorem lexFrom_replicate (line column k : Nat) (cs : List Char) :
    lexFrom line column (List.replicate k ' ' ++ cs) = lexFrom line (column + k) cs := by
  induction k generalizing column with
  | zero => rfl
  | succ k ih =>
      rw [List.replicate_succ, List.cons_append, lexFrom, if_pos (by decide), ih]
      congr 1
      omega

theorem isPlain_of_isSkipped {c : Char} (h : isSkipped c = true) : isPlain c = true :=
  Lexeme.isPlain_of (by decide) (by decide) (by decide) h

/-- The scanner knows whether a comment is open at the end. -/
theorem snd_lexFrom (line column : Nat) (cs : List Char) :
    (lexFrom line column cs).2 = (code.scan cs).2 := by
  fun_induction lexFrom line column cs with
  | case1 column => rfl
  | case2 column c cs hskip ih => rw [ih, scan_code_of_isPlain (isPlain_of_isSkipped hskip)]
  | case3 column c cs hskip lexeme token rest ih =>
      rw [scan_of_reads (Lexeme.reads_at c cs), ← ih]

theorem commentClose?_le {cs : List Char} {n : Nat} (h : commentClose? cs = some n) :
    n ≤ cs.length := by
  fun_induction commentClose? cs generalizing n with
  | case1 cs =>
      obtain rfl := Option.some.inj h
      simp
  | case2 c cs hclose ih =>
      obtain ⟨m, hm, rfl⟩ := Option.map_eq_some_iff.1 h
      exact Nat.succ_le_succ (ih hm)
  | case3 => simp at h

theorem tail_le_of_comment {c : Char} {cs : List Char} (h : (Lexeme.at c cs).kind = .comment) :
    (Lexeme.at c cs).tail ≤ cs.length := by
  have hreads := Lexeme.reads_at c cs
  generalize Lexeme.at c cs = x at hreads h
  cases hreads with
  | lineComment | openComment => exact Nat.le_refl _
  | closedComment hc hcs hclose =>
      subst hcs
      exact Nat.succ_le_succ (commentClose?_le hclose)
  | closedString | openString => simp at h
  | plain hstart hquote hkind => exact absurd h hkind

theorem blankComments_of_comment {c : Char} {cs : List Char}
    (h : (Lexeme.at c cs).kind = .comment) :
    blankComments (c :: cs) = List.replicate (1 + (Lexeme.at c cs).tail) ' ' ++
      blankComments (cs.drop (Lexeme.at c cs).tail) := by
  rw [blankComments, scan_of_reads (Lexeme.reads_at c cs), h, TokenKind.shown_comment,
    blankHidden_append, blankHidden_map_none, List.length_cons,
    List.length_take_of_le (tail_le_of_comment h), Nat.add_comm, blankComments]

theorem blankComments_of_code {c : Char} {cs : List Char}
    (h : (Lexeme.at c cs).kind ≠ .comment) :
    blankComments (c :: cs) = c :: (cs.take (Lexeme.at c cs).tail ++
      blankComments (cs.drop (Lexeme.at c cs).tail)) := by
  rw [blankComments, scan_of_reads (Lexeme.reads_at c cs), TokenKind.shown_of_ne h,
    blankHidden_append, blankHidden_map_some, blankComments]
  rfl

theorem take_append_blankComments (n : Nat) (cs : List Char) :
    (cs.take n ++ blankComments (cs.drop n)).take n = cs.take n ∧
      (cs.take n ++ blankComments (cs.drop n)).drop n = blankComments (cs.drop n) := by
  rcases Nat.le_total n cs.length with hn | hn
  · have hlength := List.length_take_of_le hn
    exact ⟨List.take_left' hlength, List.drop_left' hlength⟩
  · rw [List.take_of_length_le hn, List.drop_of_length_le hn]
    simp [blankComments, blankHidden, hn, List.take_of_length_le]

/-- The code tokens of a text are its tokens when comments are blanked. -/
theorem codeTokens_lexFrom (line column : Nat) (cs : List Char) :
    codeTokens (lexFrom line column cs).1 = (lexFrom line column (blankComments cs)).1 := by
  fun_induction lexFrom line column cs with
  | case1 column => simp [codeTokens, blankComments, blankHidden, lexFrom]
  | case2 column c cs hskip ih =>
      rw [blankComments_of_isPlain (isPlain_of_isSkipped hskip), lexFrom, if_pos hskip, ih]
  | case3 column c cs hskip lexeme token rest ih =>
      by_cases hkind : lexeme.kind = .comment
      · have htoken : codeTokens (token :: rest.1) = codeTokens rest.1 := by
          simp [codeTokens, token, hkind]
        rw [htoken, ih, blankComments_of_comment hkind, lexFrom_replicate, Nat.add_assoc]
      · have htoken : codeTokens (token :: rest.1) = token :: codeTokens rest.1 := by
          simp [codeTokens, token, hkind]
        obtain ⟨htake, hdrop⟩ := take_append_blankComments lexeme.tail cs
        rw [htoken, ih, blankComments_of_code hkind, lexFrom, if_neg hskip,
          Lexeme.at_take_append_blankComments hkind]
        dsimp only
        rw [htake, hdrop]

/-- A comment token blanks its own characters. -/
theorem blankComment_append {token : Token} (before part after : List Char)
    (hkind : token.kind = .comment) (hcolumn : token.column = before.length)
    (htext : token.text = String.ofList part) :
    Line.blankComment (before ++ (part ++ after)) token =
      before ++ (List.replicate part.length ' ' ++ after) := by
  rw [Line.blankComment, if_pos hkind, Token.stop, hcolumn, htext, String.length_ofList]
  refine List.ext_getElem (by simp) ?_
  intro i _ _
  simp only [blankSpan, List.getElem_mapIdx, List.getElem_append, List.getElem_replicate,
    List.length_replicate]
  split_ifs <;> first | rfl | omega

/-- Blanking the comments among the tokens blanks the comments. -/
theorem foldl_blankComment_lexFrom (line : Nat) (before cs : List Char) :
    (lexFrom line before.length cs).1.foldl Line.blankComment (before ++ cs) =
      before ++ blankComments cs := by
  generalize hcolumn : before.length = column
  fun_induction lexFrom line column cs generalizing before with
  | case1 column => simp [blankComments, blankHidden]
  | case2 column c cs hskip ih =>
      have hih := ih (before ++ [c]) (by simp [hcolumn])
      rw [List.append_assoc, List.singleton_append] at hih
      rw [hih, blankComments_of_isPlain (isPlain_of_isSkipped hskip), List.append_assoc,
        List.singleton_append]
  | case3 column c cs hskip lexeme token rest ih =>
      have hsplit : c :: cs = c :: cs.take lexeme.tail ++ cs.drop lexeme.tail := by
        rw [List.cons_append, List.take_append_drop]
      rw [List.foldl_cons]
      by_cases hkind : lexeme.kind = .comment
      · have hlength : (c :: cs.take lexeme.tail).length = 1 + lexeme.tail := by
          rw [List.length_cons, List.length_take_of_le (tail_le_of_comment hkind), Nat.add_comm]
        have hblank : Line.blankComment (before ++ c :: cs) token =
            before ++ (List.replicate (1 + lexeme.tail) ' ' ++ cs.drop lexeme.tail) := by
          rw [hsplit, ← hlength]
          exact blankComment_append before _ _ hkind hcolumn.symm rfl
        have hih := ih (before ++ List.replicate (1 + lexeme.tail) ' ') (by simp [hcolumn]; omega)
        rw [List.append_assoc, List.append_assoc] at hih
        rw [hblank, hih, blankComments_of_comment hkind]
      · have hblank : Line.blankComment (before ++ c :: cs) token = before ++ c :: cs :=
          if_neg hkind
        rw [hblank, blankComments_of_code hkind]
        rcases Nat.le_total lexeme.tail cs.length with hle | hge
        · have hih := ih (before ++ c :: cs.take lexeme.tail) (by simp [hcolumn, hle]; omega)
          rw [List.append_assoc, List.append_assoc, ← hsplit] at hih
          exact hih
        · -- Nothing is left behind a token that reaches to the end.
          have hnil : cs.drop lexeme.tail = [] := List.drop_eq_nil_of_le hge
          have htake : cs.take lexeme.tail = cs := List.take_of_length_le hge
          show List.foldl _ _ (lexFrom _ _ (cs.drop lexeme.tail)).1 =
            before ++ c :: (cs.take lexeme.tail ++ blankComments (cs.drop lexeme.tail))
          rw [hnil, htake]
          simp [lexFrom, blankComments, blankHidden]

/-! ### Lines -/

theorem all_isBlank_of_strip {text : List Char} (h : strip text = []) :
    text.all isBlank = true := by
  rw [strip, stripStart] at h
  obtain ⟨tail, htail, hblank⟩ := dropEndWhile_append_rest isBlank (text.dropWhile isBlank)
  rw [show dropEndWhile isBlank (text.dropWhile isBlank) = [] from h, List.nil_append] at htail
  rw [← List.takeWhile_append_dropWhile (p := isBlank) (l := text), List.all_append, htail,
    List.all_takeWhile, Bool.true_and, List.all_eq_true]
  exact hblank

theorem snd_lexLine (text : List Char) (line : Nat) (inComment : Bool) :
    (lexLine text line inComment).2 = ((atStart inComment).scan text).2 := by
  cases inComment with
  | false => exact snd_lexFrom line 0 text
  | true =>
      cases hclose : commentClose? text with
      | none =>
          have hscan := scan_comment_of_open hclose
          simp only [lexLine, hclose, atStart, if_true, hscan]
          split <;> rfl
      | some n =>
          have hscan := scan_comment_of_closed hclose
          simp only [lexLine, hclose, atStart, if_true, hscan, snd_lexFrom]

theorem codeTokens_lexLine (text : List Char) (line : Nat) (inComment : Bool) :
    codeTokens (lexLine text line inComment).1 =
      (lexFrom line 0 (blankHidden ((atStart inComment).scan text).1)).1 := by
  cases inComment with
  | false => exact codeTokens_lexFrom line 0 text
  | true =>
      cases hclose : commentClose? text with
      | none =>
          have hscan := scan_comment_of_open hclose
          have hblank := lexFrom_replicate line 0 text.length []
          rw [List.append_nil] at hblank
          simp only [lexLine, hclose, atStart, if_true, hscan, blankHidden_map_none, hblank]
          split <;> simp [codeTokens, lexFrom]
      | some n =>
          have hscan := scan_comment_of_closed hclose
          have hlength := List.length_take_of_le (commentClose?_le hclose)
          simp only [lexLine, hclose, atStart, if_true, hscan, blankHidden_append,
            blankHidden_map_none, lexFrom_replicate, hlength, Nat.zero_add]
          exact codeTokens_lexFrom line n (text.drop n)

/-- The code of a line is what is shown of it, unless the line is blank and inside of a comment. -/
theorem code_lexLine_of_not_blank {text : List Char} (line : Nat) {inComment : Bool}
    (hblank : ¬(inComment = true ∧ strip text = [])) :
    (Line.mk line text (lexLine text line inComment).1).code =
      blankHidden ((atStart inComment).scan text).1 := by
  cases inComment with
  | false => exact foldl_blankComment_lexFrom line [] text
  | true =>
      have hstrip : strip text ≠ [] := fun h => hblank ⟨rfl, h⟩
      cases hclose : commentClose? text with
      | none =>
          have hscan := scan_comment_of_open hclose
          have hblank : Line.blankComment text ⟨.comment, String.ofList text, line, 0, true⟩ =
              List.replicate text.length ' ' := by
            simpa only [List.nil_append, List.append_nil] using
              blankComment_append [] text [] rfl rfl rfl
          simp only [Line.code, lexLine, hclose, atStart, if_true, hscan, blankHidden_map_none,
            if_neg hstrip]
          exact hblank
      | some n =>
          have hscan := scan_comment_of_closed hclose
          have hlength := List.length_take_of_le (commentClose?_le hclose)
          have hblank : Line.blankComment text
              ⟨.comment, String.ofList (text.take n), line, 0, true⟩ =
                List.replicate n ' ' ++ text.drop n := by
            simpa only [List.nil_append, List.take_append_drop, hlength] using
              blankComment_append [] (text.take n) (text.drop n) rfl rfl rfl
          have hrest := foldl_blankComment_lexFrom line (List.replicate n ' ') (text.drop n)
          rw [List.length_replicate, ← hblank] at hrest
          simp only [Line.code, lexLine, hclose, atStart, if_true, hscan, blankHidden_append,
            blankHidden_map_none, hlength, List.foldl_cons]
          exact hrest

theorem commentClose?_eq_none_of_not_mem {cs : List Char} (h : '*' ∉ cs) :
    commentClose? cs = none := by
  fun_induction commentClose? cs with
  | case1 cs => simp at h
  | case2 c cs hclose ih =>
      rw [List.mem_cons, not_or] at h
      rw [ih h.2]
      rfl
  | case3 => rfl

/-- A line of blanks closes no comment. -/
theorem commentClose?_of_strip {text : List Char} (h : strip text = []) :
    commentClose? text = none := by
  refine commentClose?_eq_none_of_not_mem fun hstar => ?_
  exact absurd (List.all_eq_true.1 (all_isBlank_of_strip h) _ hstar) (by decide)

/-- The code of a line is what is shown of it, up to other blanks on a blank line. -/
theorem code_lexLine (text : List Char) (line : Nat) (inComment : Bool) :
    (Line.mk line text (lexLine text line inComment).1).code =
        blankHidden ((atStart inComment).scan text).1 ∨
      (Line.mk line text (lexLine text line inComment).1).code.all isBlank = true ∧
        (blankHidden ((atStart inComment).scan text).1).all isBlank = true := by
  by_cases hblank : inComment = true ∧ strip text = []
  · obtain ⟨rfl, hstrip⟩ := hblank
    have hclose := commentClose?_of_strip hstrip
    have hscan := scan_comment_of_open hclose
    simp only [Line.code, lexLine, hclose, atStart, if_true, hscan, blankHidden_map_none,
      if_pos hstrip]
    exact .inr ⟨all_isBlank_of_strip hstrip, by simp [isBlank]⟩
  · exact .inl (code_lexLine_of_not_blank line hblank)

end

end Polyloft
