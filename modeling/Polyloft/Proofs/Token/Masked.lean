import Mathlib.Data.List.Forall2
import Polyloft.Proofs.Token.Lossless

/-!
# Polyloft.Proofs.Token.Masked

The blanked views of a line are lexed alike. The code of a line, with comments blanked, has exactly
the line's code tokens; the masked code, with the insides of string literals blanked as well, has
the same tokens with blanked literals. Later layers read declarations from the masked code and lex
texts cut from the code again, and rely on this.

## Proof shape

A lexeme that is neither a comment nor a string literal does not look past a quote
(`Lexeme.at_take_append`), and a blanked literal is a literal of the same length with the same end
(`Lexeme.exists_masked_literal`). By induction on the lexer, blanking the literals of a text that
has no comment blanks the tokens (`exists_masks`). That the code of a line has no comment is known
from `Polyloft.Proofs.Comment.Blank`.
-/

namespace Polyloft

open Polyloft.Text Region Lexeme

/-! ### Blanked literals -/

theorem blankSpan_zero_append (w cs : List Char) :
    blankSpan 0 w.length (w ++ cs) = List.replicate w.length ' ' ++ cs := by
  refine List.ext_getElem (by simp) ?_
  intro i _ _
  simp only [blankSpan, List.getElem_mapIdx, List.getElem_append, List.getElem_replicate,
    List.length_replicate]
  split_ifs <;> first | rfl | omega

theorem blankSpan_succ_cons (lo hi : Nat) (c : Char) (cs : List Char) :
    blankSpan (lo + 1) (hi + 1) (c :: cs) = c :: blankSpan lo hi cs := by
  simp [blankSpan, List.mapIdx_cons]

theorem blankSpan_append {part : List Char} {lo hi : Nat} (before after : List Char)
    (hle : hi ≤ part.length) :
    blankSpan (before.length + lo) (before.length + hi) (before ++ (part ++ after)) =
      before ++ (blankSpan lo hi part ++ after) := by
  refine List.ext_getElem (by simp) ?_
  intro i _ _
  simp only [blankSpan, List.getElem_mapIdx, List.getElem_append, List.length_mapIdx]
  split_ifs <;> first | rfl | omega

/-- The closing quote is the last character of a literal. -/
theorem exists_take_of_closingQuote? {quote : Char} {cs : List Char} {n : Nat}
    (h : closingQuote? quote cs = some n) :
    ∃ inner, cs.take n = inner ++ [quote] ∧ inner.length + 1 = n := by
  fun_induction closingQuote? quote cs generalizing n with
  | case1 => simp at h
  | case2 => simp at h
  | case3 c cs ih =>
      obtain ⟨m, hm, rfl⟩ := Option.map_eq_some_iff.1 h
      obtain ⟨inner, htake, rfl⟩ := ih hm
      exact ⟨'\\' :: c :: inner, by simp [htake], by simp⟩
  | case4 cs hlast hescape =>
      obtain rfl := Option.some.inj h
      exact ⟨[], by simp, rfl⟩
  | case5 c cs hlast hescape hne ih =>
      obtain ⟨m, hm, rfl⟩ := Option.map_eq_some_iff.1 h
      obtain ⟨inner, htake, rfl⟩ := ih hm
      exact ⟨c :: inner, by simp [htake], by simp⟩

theorem closingQuote?_replicate {quote : Char} (h : quote = '"' ∨ quote = '\'') (k : Nat)
    (cs : List Char) :
    closingQuote? quote (List.replicate k ' ' ++ cs) = (closingQuote? quote cs).map (· + k) := by
  have hspace : ' ' ≠ quote := by rcases h with rfl | rfl <;> decide
  induction k with
  | zero => simp
  | succ k ih =>
      rw [List.replicate_succ, List.cons_append, closingQuote?_cons (by decide), if_neg hspace, ih,
        Option.map_map]
      congr 1

/-- A literal starts with a quote, and its lexeme says where it ends. -/
theorem Lexeme.reads_string {c : Char} {cs : List Char} (h : (Lexeme.at c cs).kind = .string) :
    (c = '"' ∨ c = '\'') ∧
      ((∃ n, closingQuote? c cs = some n ∧ Lexeme.at c cs = ⟨.string, n, true, false⟩) ∨
        closingQuote? c cs = none ∧ Lexeme.at c cs = ⟨.string, cs.length, false, false⟩) := by
  have hquote : c = '"' ∨ c = '\'' := by
    by_contra hquote
    exact Lexeme.kind_ne_string hquote h
  have hreads := Lexeme.reads_at c cs
  generalize Lexeme.at c cs = x at hreads h
  cases hreads with
  | lineComment | closedComment | openComment => simp at h
  | closedString _ hclose => exact ⟨hquote, .inl ⟨_, hclose, rfl⟩⟩
  | openString _ hclose => exact ⟨hquote, .inr ⟨hclose, rfl⟩⟩
  | plain _ hnot => exact absurd hquote hnot

theorem Lexeme.at_quote {c : Char} (h : c = '"' ∨ c = '\'') (cs : List Char) :
    Lexeme.at c cs =
      match closingQuote? c cs with
      | some n => ⟨.string, n, true, false⟩
      | none => ⟨.string, cs.length, false, false⟩ := by
  have hstart : Region.startsComment c cs.head? = false := by rcases h with rfl | rfl <;> rfl
  have hat : c ≠ '@' := by rcases h with rfl | rfl <;> decide
  rw [at_eq, hstart, if_neg hat, if_pos h]
  rfl

/-- Blanking the inside of a literal keeps its length and its end. -/
theorem Lexeme.exists_masked_literal {c : Char} {cs : List Char}
    (h : (Lexeme.at c cs).kind = .string) :
    let x := Lexeme.at c cs
    ∃ tail, tail.length = x.tail ∧ (∀ d ∈ tail, d = ' ' ∨ d = c) ∧
      blankSpan 1 (if x.terminated then x.tail else x.tail + 1) (c :: cs.take x.tail) = c :: tail ∧
      ∀ rest, (x.terminated = false → rest = []) → Lexeme.at c (tail ++ rest) = x := by
  intro x
  obtain ⟨hquote, ⟨n, hclose, hx⟩ | ⟨hclose, hx⟩⟩ := reads_string h
  · obtain ⟨inner, htake, rfl⟩ := exists_take_of_closingQuote? hclose
    refine ⟨List.replicate inner.length ' ' ++ [c], ?_, ?_, ?_, ?_⟩
    · simp [x, hx]
    · intro d hd
      rcases List.mem_append.1 hd with hd | hd
      · exact .inl (List.eq_of_mem_replicate hd)
      · exact .inr (List.mem_singleton.1 hd)
    · simp only [x, hx, if_true]
      rw [blankSpan_succ_cons, htake, blankSpan_zero_append]
    · intro rest _
      have hfirst : closingQuote? c (c :: rest) = some 1 := by
        rw [closingQuote?_cons (by rcases hquote with rfl | rfl <;> decide), if_pos rfl]
      simp only [x, hx]
      rw [at_quote hquote, List.append_assoc, closingQuote?_replicate hquote,
        List.singleton_append, hfirst, Option.map_some, Nat.add_comm]
  · refine ⟨List.replicate cs.length ' ', ?_, ?_, ?_, ?_⟩
    · simp [x, hx]
    · exact fun d hd => .inl (List.eq_of_mem_replicate hd)
    · simp only [x, hx, Bool.false_eq_true, if_false, List.take_length]
      rw [blankSpan_succ_cons]
      simpa using blankSpan_zero_append cs []
    · -- Blanks close nothing, so the literal stays open.
      intro rest hrest
      have hnone := closingQuote?_replicate hquote cs.length []
      rw [List.append_nil, closingQuote?, Option.map_none] at hnone
      rw [hrest (congrArg Lexeme.terminated hx), List.append_nil, at_quote hquote, hnone]
      simp [x, hx]

/-! ### Tokens -/

/-- The token with the inside of a string literal blanked. -/
def Token.masked (t : Token) : Token :=
  if t.kind = .string then
    { t with
      text := String.ofList
        (blankSpan 1 (if t.terminated then t.text.length - 1 else t.text.length) t.text.toList) }
  else t

/-- The tokens look alike but for the text of a string literal. -/
structure Token.Alike (t u : Token) : Prop where
  kind : u.kind = t.kind
  column : u.column = t.column
  stop : u.stop = t.stop
  terminated : u.terminated = t.terminated
  text : t.kind ≠ .string → u.text = t.text

theorem Token.alike_masked (t : Token) : t.Alike t.masked := by
  unfold Token.masked
  split
  · rename_i hkind
    exact ⟨rfl, rfl, by simp [Token.stop, String.length_toList], rfl, fun hne => absurd hkind hne⟩
  · exact ⟨rfl, rfl, rfl, rfl, fun _ => rfl⟩

theorem Token.masked_of_ne {t : Token} (h : t.kind ≠ .string) : t.masked = t := by
  rw [Token.masked, if_neg h]

/-- A token blanks nothing but the inside of its own literal. -/
theorem blankString_append {t : Token} {part : List Char} (before after : List Char)
    (hcolumn : t.column = before.length) (htext : t.text = String.ofList part) (hpart : part ≠ []) :
    Line.blankString (before ++ (part ++ after)) t = before ++ (t.masked.text.toList ++ after) := by
  by_cases hkind : t.kind = .string
  · have hpos := List.length_pos_iff.2 hpart
    have hend : (if t.terminated then before.length + part.length - 1
        else before.length + part.length) =
          before.length + (if t.terminated then part.length - 1 else part.length) := by
      split <;> omega
    have hle : (if t.terminated then part.length - 1 else part.length) ≤ part.length := by
      split <;> omega
    rw [Line.blankString, if_pos hkind, Token.masked, if_pos hkind, Token.stop, hcolumn]
    simp only [htext, String.length_ofList, String.toList_ofList]
    rw [hend, blankSpan_append before after hle]
  · rw [Line.blankString, if_neg hkind, Token.masked_of_ne hkind, htext, String.toList_ofList]

/-! ### Lexing -/

/-- The masked token of a blanked literal. -/
theorem Token.masked_literal {c : Char} {cs tail : List Char} {x : Lexeme}
    (hkind : x.kind = .string) (hle : x.tail ≤ cs.length) (line column : Nat)
    (hblank : blankSpan 1 (if x.terminated then x.tail else x.tail + 1) (c :: cs.take x.tail) =
      c :: tail) :
    Token.masked ⟨x.kind, String.ofList (c :: cs.take x.tail), line, column, x.terminated⟩ =
      ⟨x.kind, String.ofList (c :: tail), line, column, x.terminated⟩ := by
  have hlength : (c :: cs.take x.tail).length = x.tail + 1 := by
    rw [List.length_cons, List.length_take_of_le hle]
  rw [Token.masked, if_pos hkind]
  simp only [String.length_ofList, String.toList_ofList, hlength, Nat.add_sub_cancel, hblank]

/-- Only a comment can stay open. -/
theorem Lexeme.opens_eq_false {c : Char} {cs : List Char} (h : (Lexeme.at c cs).kind ≠ .comment) :
    (Lexeme.at c cs).opens = false := by
  have hreads := Lexeme.reads_at c cs
  generalize Lexeme.at c cs = x at hreads h
  cases hreads with
  | lineComment | closedComment | openComment => exact absurd rfl h
  | closedString | openString => rfl
  | plain _ _ _ hopens => exact hopens

theorem lexFrom_of_at {c : Char} {piece after : List Char} {x : Lexeme}
    (hskip : ¬isSkipped c = true) (hat : Lexeme.at c (piece ++ after) = x)
    (hlength : piece.length = x.tail) (line column : Nat) :
    lexFrom line column (c :: (piece ++ after)) =
      (⟨x.kind, String.ofList (c :: piece), line, column, x.terminated⟩ ::
        (lexFrom line (column + 1 + x.tail) after).1,
        x.opens || (lexFrom line (column + 1 + x.tail) after).2) := by
  rw [lexFrom, if_neg hskip]
  simp only [hat, ← hlength, List.take_left, List.drop_left]

/-- Blanking the literals of `cs`, which stands behind `before`, gives `masked`. It has the same
front and is lexed alike. -/
structure Masks (line : Nat) (before cs masked : List Char) : Prop where
  length : masked.length = cs.length
  head : masked.head? = cs.head?
  front : SameFront masked cs
  blanked : (lexFrom line before.length cs).1.foldl Line.blankString (before ++ cs) =
    before ++ masked
  lexed : lexFrom line before.length masked =
    ((lexFrom line before.length cs).1.map Token.masked, false)

namespace Masks

variable {line : Nat} {before cs tail masked : List Char} {c : Char}

theorem skip (hskip : isSkipped c = true) (h : Masks line (before ++ [c]) cs masked) :
    Masks line before (c :: cs) (c :: masked) := by
  have hlength : (before ++ [c]).length = before.length + 1 := List.length_append
  have hblanked := h.blanked
  have hlexed := h.lexed
  rw [hlength] at hblanked hlexed
  refine ⟨by simp [h.length], rfl, .cons c h.front, ?_, ?_⟩
  · rw [lexFrom, if_pos hskip]
    simpa using hblanked
  · rw [lexFrom, lexFrom, if_pos hskip, if_pos hskip, hlexed]

/-- A lexeme that is found again in a text of its length, put in its place. -/
theorem lexeme {t : Token} (ht : t = ⟨(Lexeme.at c cs).kind,
      String.ofList (c :: cs.take (Lexeme.at c cs).tail), line, before.length,
      (Lexeme.at c cs).terminated⟩)
    (hskip : ¬isSkipped c = true) (hcomment : t.kind ≠ .comment)
    (hlength : tail.length = (Lexeme.at c cs).tail)
    (hmasked : t.masked = { t with text := String.ofList (c :: tail) })
    (hat : Lexeme.at c (tail ++ masked) = Lexeme.at c cs)
    (hfront : SameFront (c :: (tail ++ masked)) (c :: cs))
    (h : Masks line (before ++ c :: tail) (cs.drop (Lexeme.at c cs).tail) masked) :
    Masks line before (c :: cs) (c :: (tail ++ masked)) := by
  have hle := Lexeme.tail_at_le c cs
  have hsplit : c :: cs =
      (c :: cs.take (Lexeme.at c cs).tail) ++ cs.drop (Lexeme.at c cs).tail := by
    simp
  have hbehind : (before ++ c :: tail).length = before.length + 1 + (Lexeme.at c cs).tail := by
    rw [List.length_append, List.length_cons, hlength]
    omega
  have hblanked := h.blanked
  have hlexed := h.lexed
  rw [hbehind] at hblanked hlexed
  refine ⟨?_, rfl, hfront, ?_, ?_⟩
  · have hrest := h.length
    rw [List.length_drop] at hrest
    rw [List.length_cons, List.length_cons, List.length_append, hlength, hrest]
    omega
  · have hself : Line.blankString (before ++ c :: cs) t =
        before ++ c :: tail ++ cs.drop (Lexeme.at c cs).tail := by
      rw [hsplit, blankString_append before _ (by rw [ht]) (congrArg Token.text ht) (by simp),
        hmasked, String.toList_ofList, List.append_assoc]
    rw [lexFrom, if_neg hskip, List.foldl_cons, ← ht, hself, hblanked, List.append_assoc,
      List.cons_append]
  · have hopens : (Lexeme.at c cs).opens = false := by
      rw [ht] at hcomment
      exact Lexeme.opens_eq_false hcomment
    rw [lexFrom_of_at hskip hat hlength, hlexed, hopens, lexFrom, if_neg hskip, List.map_cons, ← ht,
      hmasked, ht]
    rfl

/-- A blanked literal is a literal with the same end. -/
theorem exists_literal (hskip : ¬isSkipped c = true) (hkind : (Lexeme.at c cs).kind = .string)
    (ih : ∀ before, ∃ masked, Masks line before (cs.drop (Lexeme.at c cs).tail) masked) :
    ∃ masked, Masks line before (c :: cs) masked := by
  obtain ⟨tail, hlength, -, hspan, hread⟩ := Lexeme.exists_masked_literal hkind
  obtain ⟨masked, h⟩ := ih (before ++ c :: tail)
  have hquote : c = '"' ∨ c = '\'' := (Lexeme.reads_string hkind).1
  have hat : Lexeme.at c (tail ++ masked) = Lexeme.at c cs := by
    -- An open literal takes the rest of the text, so nothing is left to be blanked.
    refine hread masked fun hopen => List.eq_nil_of_length_eq_zero ?_
    rw [h.length, Lexeme.eq_of_unterminated hopen, List.drop_length, List.length_nil]
  have hmasked := Token.masked_literal hkind (Lexeme.tail_at_le c cs) line before.length hspan
  have hstop : goesOn c = false := by rcases hquote with rfl | rfl <;> rfl
  exact ⟨_, h.lexeme rfl hskip (by simp [hkind]) hlength hmasked hat (.stop hstop hstop)⟩

/-- What is neither a comment nor a literal does not see that a literal behind it is blanked. -/
theorem exists_plain (hskip : ¬isSkipped c = true) (hcomment : (Lexeme.at c cs).kind ≠ .comment)
    (hstring : (Lexeme.at c cs).kind ≠ .string)
    (ih : ∀ before, ∃ masked, Masks line before (cs.drop (Lexeme.at c cs).tail) masked) :
    ∃ masked, Masks line before (c :: cs) masked := by
  obtain ⟨masked, h⟩ := ih (before ++ c :: cs.take (Lexeme.at c cs).tail)
  have hfront := h.front.append_left (cs.take (Lexeme.at c cs).tail)
  rw [List.take_append_drop] at hfront
  have hat := Lexeme.at_take_append hcomment h.front (fun hstart => h.head ▸ hstart) fun hnil =>
    List.eq_nil_of_length_eq_zero (by rw [h.length, hnil, List.length_nil])
  exact ⟨_, h.lexeme rfl hskip hcomment (List.length_take_of_le (Lexeme.tail_at_le c cs))
    (Token.masked_of_ne hstring) hat (.cons c hfront)⟩

end Masks

/-- A text without comments is lexed as before when its literals are blanked, but for the texts of
the literals. -/
theorem exists_masks {line column : Nat} {cs : List Char} (before : List Char)
    (hcode : ∀ t ∈ (lexFrom line column cs).1, t.kind ≠ .comment) :
    ∃ masked, Masks line before cs masked := by
  fun_induction lexFrom line column cs generalizing before with
  | case1 column => exact ⟨[], rfl, rfl, .stop rfl rfl, by simp [lexFrom], by simp [lexFrom]⟩
  | case2 column c cs hskip ih =>
      obtain ⟨masked, h⟩ := ih (before ++ [c]) hcode
      exact ⟨c :: masked, h.skip hskip⟩
  | case3 column c cs hskip lexeme token rest ih =>
      rw [List.forall_mem_cons] at hcode
      by_cases hkind : lexeme.kind = .string
      · exact Masks.exists_literal hskip hkind fun before => ih before hcode.2
      · exact Masks.exists_plain hskip hcode.1 hkind fun before => ih before hcode.2

/-- A token is a lexeme somewhere in the text. -/
theorem exists_lexeme_of_mem {line column : Nat} {cs : List Char} {t : Token}
    (ht : t ∈ (lexFrom line column cs).1) :
    ∃ c ds column, c ∈ cs ∧ isSkipped c = false ∧
      t = ⟨(Lexeme.at c ds).kind, String.ofList (c :: ds.take (Lexeme.at c ds).tail), line, column,
        (Lexeme.at c ds).terminated⟩ := by
  fun_induction lexFrom line column cs with
  | case1 => simp at ht
  | case2 column c cs hskip ih =>
      obtain ⟨d, ds, k, hd, hrest⟩ := ih ht
      exact ⟨d, ds, k, List.mem_cons_of_mem _ hd, hrest⟩
  | case3 column c cs hskip lexeme token rest ih =>
      rcases List.mem_cons.1 ht with rfl | ht
      · exact ⟨c, cs, column, List.mem_cons_self .., by simpa using hskip, rfl⟩
      · obtain ⟨d, ds, k, hd, hrest⟩ := ih ht
        exact ⟨d, ds, k, List.mem_cons_of_mem _ (List.mem_of_mem_drop hd), hrest⟩

/-- Nothing but its quotes is left of a literal. -/
theorem Token.eq_of_mem_masked {line column : Nat} {cs : List Char} {t : Token}
    (ht : t ∈ (lexFrom line column cs).1) (hkind : t.kind = .string) {d : Char}
    (hd : d ∈ t.masked.text.toList) : d = ' ' ∨ d = '"' ∨ d = '\'' := by
  obtain ⟨c, ds, k, -, -, rfl⟩ := exists_lexeme_of_mem ht
  obtain ⟨tail, -, htail, hspan, -⟩ := Lexeme.exists_masked_literal hkind
  rw [Token.masked_literal hkind (Lexeme.tail_at_le c ds) line k hspan, String.toList_ofList] at hd
  have hquote := (Lexeme.reads_string hkind).1
  rcases List.mem_cons.1 hd with rfl | hd
  · exact .inr hquote
  · rcases htail d hd with rfl | rfl
    · exact .inl rfl
    · exact .inr hquote

/-- Only a comment can be open at the end of a text. -/
theorem snd_lexFrom_of_code {line column : Nat} {cs : List Char}
    (h : ∀ t ∈ (lexFrom line column cs).1, t.kind ≠ .comment) :
    (lexFrom line column cs).2 = false := by
  fun_induction lexFrom line column cs with
  | case1 => rfl
  | case2 column c cs hskip ih => exact ih h
  | case3 column c cs hskip lexeme token rest ih =>
      rw [List.forall_mem_cons] at h
      have hopens : lexeme.opens = false := Lexeme.opens_eq_false h.1
      rw [hopens, Bool.false_or]
      exact ih h.2

/-! ### Lines -/

theorem Line.kind_ne_comment {l : Line} {t : Token} (ht : t ∈ l.codeTokens) :
    t.kind ≠ .comment := by
  simpa using (List.mem_filter.1 ht).2

/-- Comments have no literals to blank. -/
theorem Line.masked_eq (l : Line) : l.masked = l.codeTokens.foldl Line.blankString l.code := by
  have hcomment (cs : List Char) (t : Token) : Line.blankString cs t =
      if (t.kind != .comment) = true then Line.blankString cs t else cs := by
    split
    · rfl
    · rename_i hkind
      have hkind : t.kind = .comment := by simpa using hkind
      rw [Line.blankString, if_neg (by simp [hkind])]
  rw [Line.masked, Line.codeTokens, Polyloft.codeTokens, List.foldl_filter]
  congr 1
  funext cs t
  exact hcomment cs t

/-- The views of the line are lexed as the line is. -/
structure Line.Lexed (l : Line) : Prop where
  code : lexFrom l.index 0 l.code = (l.codeTokens, false)
  masked : lexFrom l.index 0 l.masked = (l.codeTokens.map Token.masked, false)

theorem Line.lexed_lexLine {text : List Char} (line : Nat) {inComment : Bool}
    (hblank : ¬(inComment = true ∧ text ≠ [] ∧ text.all Text.isBlank = true)) :
    Line.Lexed ⟨line, text, (lexLine text line inComment).1⟩ := by
  generalize hl : Line.mk line text (lexLine text line inComment).1 = l
  have hindex : l.index = line := by rw [← hl]
  have htokens : (lexFrom line 0 l.code).1 = l.codeTokens := by
    rcases eq_or_ne text [] with rfl | hne
    · rw [← hl, lexLine_nil]
      simp [Line.code, Line.codeTokens, Polyloft.codeTokens, lexFrom]
    · have hstrip : ¬(inComment = true ∧ strip text = []) := fun h =>
        hblank ⟨h.1, hne, all_isBlank_of_strip h.2⟩
      rw [← hl, code_lexLine_of_not_blank line hstrip]
      exact (codeTokens_lexLine text line inComment).symm
  have hkind : ∀ t ∈ (lexFrom line 0 l.code).1, t.kind ≠ .comment := by
    rw [htokens]
    exact fun t => Line.kind_ne_comment
  obtain ⟨masked, hmasks⟩ := exists_masks [] hkind
  have hmasked := hmasks.blanked
  rw [List.length_nil, htokens, List.nil_append, ← Line.masked_eq, List.nil_append] at hmasked
  constructor
  · rw [hindex, ← htokens]
    exact Prod.ext rfl (snd_lexFrom_of_code hkind)
  · rw [hindex, hmasked, ← htokens]
    exact hmasks.lexed

theorem getElem?_numberLines {n i : Nat} {texts : List (List Char)} {tokens : List (List Token)}
    {l : Line} (h : (numberLines n texts tokens)[i]? = some l) :
    l.index = n + i ∧ texts[i]? = some l.text ∧ tokens[i]? = some l.tokens := by
  fun_induction numberLines n texts tokens generalizing i with
  | case1 n text texts tokens rest ih =>
      cases i with
      | zero =>
          obtain rfl : _ = l := Option.some.inj h
          exact ⟨rfl, rfl, rfl⟩
      | succ i =>
          obtain ⟨hindex, htext, htokens⟩ := ih h
          exact ⟨by omega, htext, htokens⟩
  | case2 => simp at h

/-- A line of a document is lexed from the region on in which it starts. -/
theorem Document.exists_lexLine {text : List Char} {uri : Option String} {i : Nat} {l : Line}
    (h : (ofText text uri).lines[i]? = some l) :
    ∃ flag, Region.behindLines .code ((linesOf text).take i) = Region.atStart flag ∧
      l = ⟨l.index, l.text, (lexLine l.text l.index flag).1⟩ := by
  obtain ⟨hindex, htext, htokens⟩ := getElem?_numberLines h
  obtain ⟨flag, hflag, hlexed, -⟩ := exists_lexLine_of_getElem? htext 0 false
  rw [← hindex] at hlexed
  refine ⟨flag, hflag, ?_⟩
  rw [← Option.some.inj (htokens.symm.trans hlexed)]

/-- The views of a line of a document are lexed as the line is, and its tokens are laid out over it;
or the line is blank and has no token. -/
theorem Document.lexed_or_blank {text : List Char} {uri : Option String} {l : Line}
    (hl : l ∈ (ofText text uri).lines) :
    l.Lexed ∧ Lossless l.text l.tokens ∨ l.text.all isBlank = true ∧ l.tokens = [] := by
  obtain ⟨i, hi⟩ := List.mem_iff_getElem?.1 hl
  obtain ⟨flag, -, heq⟩ := exists_lexLine hi
  rw [heq]
  by_cases hblank : flag = true ∧ strip l.text = []
  · obtain ⟨rfl, hstrip⟩ := hblank
    exact .inr ⟨all_isBlank_of_strip hstrip, (lexLine_blank l.index hstrip).1⟩
  · refine .inl ⟨?_, (tiles_lexLine l.index hblank).lossless⟩
    exact Line.lexed_lexLine l.index fun h => hblank ⟨h.1, strip_of_all_isBlank h.2.2⟩

theorem Document.lexed_of_codeTokens_ne_nil {text : List Char} {uri : Option String} {l : Line}
    (hl : l ∈ (ofText text uri).lines) (hne : l.codeTokens ≠ []) :
    l.Lexed ∧ Lossless l.text l.tokens := by
  refine (lexed_or_blank hl).resolve_right fun h => hne ?_
  rw [Line.codeTokens, h.2]
  rfl

/-- The code of a line has the code tokens of the line, and the masked code has the same tokens but
for the texts of literals, unless the line is blank and starts inside of a comment. -/
theorem blanked_views_lex_alike (text : List Char) (uri : Option String) (i : Nat) (l : Line)
    (hl : (Document.ofText text uri).lines[i]? = some l)
    (hblank : ¬(Region.behindLines .code ((linesOf text).take i) = .comment ∧
      l.text ≠ [] ∧ l.text.all isBlank = true)) :
    l.code.length = l.text.length ∧ l.masked.length = l.text.length ∧
      lexLine l.code l.index false = (l.codeTokens, false) ∧
      ∃ tokens, lexLine l.masked l.index false = (tokens, false) ∧
        List.Forall₂ Token.Alike l.codeTokens tokens := by
  obtain ⟨flag, hflag, heq⟩ := Document.exists_lexLine hl
  have hlexed : l.Lexed := by
    rw [heq]
    refine Line.lexed_lexLine l.index fun h => hblank ⟨?_, h.2⟩
    rw [hflag, h.1]
    rfl
  refine ⟨l.length_code, l.length_masked, hlexed.code, _, hlexed.masked, ?_⟩
  rw [List.forall₂_map_right_iff, List.forall₂_same]
  exact fun t _ => t.alike_masked

theorem blanked_views_lex_alike_knotty :
    ∃ l, (Document.ofText (joinLines knottyLines) none).lines[2]? = some l ∧
      l.text = "*/*/ 'it\\'s' \"a\"\"b\\".toList ∧
      l.masked = "  */ '     ' \" \"\"  ".toList ∧
      lexLine l.code l.index false = (l.codeTokens, false) ∧
      ∃ tokens, lexLine l.masked l.index false = (tokens, false) ∧
        List.Forall₂ Token.Alike l.codeTokens tokens := by
  obtain ⟨l, hl⟩ : ∃ l, (Document.ofText (joinLines knottyLines) none).lines[2]? = some l :=
    ⟨_, List.getElem?_eq_getElem (by decide +kernel)⟩
  have hmap : (Document.ofText (joinLines knottyLines) none).lines[2]?.map
      (fun l => (l.text, l.masked)) =
        some ("*/*/ 'it\\'s' \"a\"\"b\\".toList, "  */ '     ' \" \"\"  ".toList) := by
    decide +kernel
  rw [hl, Option.map_some, Option.some.injEq, Prod.mk.injEq] at hmap
  obtain ⟨htext, hmasked⟩ := hmap
  have h := blanked_views_lex_alike _ none 2 l hl (by rw [htext]; decide +kernel)
  exact ⟨l, hl, htext, hmasked, h.2.2⟩

end Polyloft
