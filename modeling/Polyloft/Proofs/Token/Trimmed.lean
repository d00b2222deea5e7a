import Polyloft.Proofs.Parameter.Column
import Polyloft.Proofs.Parameter.Render
import Polyloft.Proofs.Token.Spelling

/-!
# Polyloft.Proofs.Token.Trimmed

Texts that are cut out of a line and lexed again. A text that starts behind a token has the tokens
behind it (`lexFrom_of_split`), and one without its blanks at either end has the same tokens as with
them (`spellings_strip`), if no comment and no open literal takes the blanks in. Where the blanks
end can be seen on the masked text as well, because the quotes of a literal are kept
(`Line.veils_behind`, `Veils.strip_eq`).

## Proof shape

Blanks at the end are taken off lexeme by lexeme; only a literal could reach into them. `Veils`
relates a text to the text with the insides of its literals blanked, as the lexer goes over it
(`exists_veils`), and trimming takes the same characters off both.
-/

namespace Polyloft

open Polyloft.Text

/-- No comment, and no string literal without its closing quote. -/
def Token.IsWhole (t : Token) : Prop :=
  t.kind ≠ .comment ∧ (t.kind = .string → t.terminated = true)

/-! ### Blanks at the end -/

/-- A closing quote is found before what has no quote. -/
theorem closingQuote?_of_append {quote : Char} {cs back : List Char} {n : Nat}
    (hback : quote ∉ back) (h : closingQuote? quote (cs ++ back) = some n) :
    closingQuote? quote cs = some n := by
  have hle : n ≤ cs.length := by
    rw [← Nat.not_lt]
    intro hlt
    obtain ⟨inner, htake, rfl⟩ := exists_take_of_closingQuote? h
    have hlast : ((cs ++ back).take (inner.length + 1))[inner.length]? = some quote := by
      rw [htake, List.getElem?_concat_length]
    rw [List.getElem?_take_of_lt (Nat.lt_succ_self _),
      List.getElem?_append_right (Nat.le_of_lt_succ hlt)] at hlast
    exact hback (List.mem_of_getElem? hlast)
  have hclose := closingQuote?_take_append h (cs.drop n)
  rwa [List.take_append_of_le_length hle, List.take_append_drop] at hclose

theorem Lexeme.at_append_of_isSkipped {c : Char} {cs back : List Char}
    (hback : ∀ d ∈ back, isSkipped d = true)
    (hcomment : (Lexeme.at c (cs ++ back)).kind ≠ .comment)
    (hclosed : (Lexeme.at c (cs ++ back)).kind = .string →
      (Lexeme.at c (cs ++ back)).terminated = true) :
    Lexeme.at c (cs ++ back) = Lexeme.at c cs := by
  by_cases hquote : c = '"' ∨ c = '\''
  · have hmem : c ∉ back := by
      intro hmem
      have := hback c hmem
      rcases hquote with rfl | rfl <;> exact absurd this (by decide)
    cases hclose : closingQuote? c (cs ++ back) with
    | some n => rw [at_quote hquote, at_quote hquote, hclose, closingQuote?_of_append hmem hclose]
    | none => simp [at_quote hquote, hclose] at hclosed
  · have hstart : Region.startsComment c (cs ++ back).head? = false := by
      rw [Bool.eq_false_iff]
      intro hstart
      apply hcomment
      rw [at_eq, if_pos hstart]
      repeat' split
      all_goals rfl
    refine (SameFront.append_of_isSkipped cs hback).at_eq hstart ?_ hquote
    cases cs with
    | nil => simp [Region.startsComment]
    | cons d ds => exact hstart

/-- Blanks at the end are no part of the last token. -/
theorem lexFrom_append_isSkipped {line column : Nat} {cs back : List Char}
    (hback : ∀ c ∈ back, isSkipped c = true)
    (hwhole : ∀ t ∈ (lexFrom line column (cs ++ back)).1, t.IsWhole) :
    lexFrom line column (cs ++ back) = lexFrom line column cs := by
  fun_induction lexFrom line column cs with
  | case1 column =>
      have hall := lexFrom_append_of_isSkipped hback line column []
      rw [List.append_nil, lexFrom] at hall
      exact hall
  | case2 column c cs hskip ih =>
      rw [List.cons_append, lexFrom, if_pos hskip] at hwhole ⊢
      exact ih hwhole
  | case3 column c cs hskip lexeme token rest ih =>
      rw [List.cons_append, lexFrom, if_neg hskip] at hwhole ⊢
      rw [List.forall_mem_cons] at hwhole
      have hle : lexeme.tail ≤ cs.length := Lexeme.tail_at_le c cs
      have hat : Lexeme.at c (cs ++ back) = lexeme :=
        Lexeme.at_append_of_isSkipped hback hwhole.1.1 hwhole.1.2
      rw [hat, List.drop_append_of_le_length hle] at hwhole
      rw [hat]
      dsimp only
      rw [List.take_append_of_le_length hle, List.drop_append_of_le_length hle, ih hwhole.2]

/-- A text is lexed as it is without its blanks at either end. -/
theorem spellings_strip {line column : Nat} {cs : List Char} (hcs : ∀ c ∈ cs, isAsciiText c = true)
    (hwhole : ∀ t ∈ (lexFrom line column cs).1, t.IsWhole) :
    spellings (strip cs) = spellings cs := by
  obtain ⟨front, back, hsplit, hfront, hback⟩ := exists_strip cs
  have hskipped {part : List Char} (hpart : part ⊆ cs) (hblank : ∀ c ∈ part, isBlank c = true) :
      ∀ c ∈ part, isSkipped c = true := fun c hc => by
    rw [(isSkipped_of_isAsciiText (hcs c (hpart hc))).1, hblank c hc]
  have hlead := lexFrom_append_of_isSkipped
    (hskipped (by rw [hsplit]; exact List.subset_append_left ..) hfront) line column
    (strip cs ++ back)
  rw [← hsplit] at hlead
  rw [hlead] at hwhole
  have htrail := lexFrom_append_isSkipped (hskipped (by rw [hsplit]; simp) hback) hwhole
  rw [← map_spelling_lexFrom line column cs, hlead, htrail, map_spelling_lexFrom]

/-! ### Behind a token -/

/-- The tokens behind a token are the tokens of the text behind it. -/
theorem lexFrom_of_split {line column : Nat} {cs : List Char} {before after : List Token}
    {sign : Token} (h : (lexFrom line column cs).1 = before ++ sign :: after) :
    column ≤ sign.stop ∧
      (lexFrom line sign.stop (cs.drop (sign.stop - column))).1 = after := by
  fun_induction lexFrom line column cs generalizing before with
  | case1 => simp at h
  | case2 column c cs hskip ih =>
      obtain ⟨hle, hafter⟩ := ih h
      refine ⟨by omega, ?_⟩
      rwa [show sign.stop - column = sign.stop - (column + 1) + 1 by omega, List.drop_succ_cons]
  | case3 column c cs hskip lexeme token rest =>
      rename_i ih
      have hle : lexeme.tail ≤ cs.length := Lexeme.tail_at_le c cs
      cases before with
      | nil =>
          obtain ⟨rfl, hafter⟩ := List.cons.inj h
          have hstop : token.stop = column + 1 + lexeme.tail := by
            simp only [token, Token.stop, String.length_ofList, List.length_cons,
              List.length_take_of_le hle]
            omega
          refine ⟨by omega, ?_⟩
          rw [hstop, show column + 1 + lexeme.tail - column = lexeme.tail + 1 by omega,
            List.drop_succ_cons]
          exact hafter
      | cons u before =>
          obtain ⟨hstop, hafter⟩ := ih (List.cons.inj h).2
          refine ⟨by omega, ?_⟩
          rw [List.drop_drop] at hafter
          have hdistance : sign.stop - column =
              lexeme.tail + (sign.stop - (column + 1 + lexeme.tail)) + 1 := by omega
          rwa [hdistance, List.drop_succ_cons]

/-! ### Veiled literals -/

/-- The second text is the first, but for the insides of some literals, which are blank. -/
inductive Veils : List Char → List Char → Prop where
  | nil : Veils [] []
  | same {cs masked : List Char} (c : Char) (h : Veils cs masked) : Veils (c :: cs) (c :: masked)
  | literal {cs masked : List Char} {quote : Char} (hquote : isBlank quote = false)
      (inner : List Char) (h : Veils cs masked) :
      Veils (quote :: (inner ++ quote :: cs))
        (quote :: (List.replicate inner.length ' ' ++ quote :: masked))

theorem dropEndWhile_append_cons {p : Char → Bool} {c : Char} (hc : p c = false)
    (front back : List Char) :
    dropEndWhile p (front ++ c :: back) = front ++ c :: dropEndWhile p back := by
  induction front with
  | nil => rw [List.nil_append, dropEndWhile_cons, if_neg (by simp [hc])]; rfl
  | cons d front ih =>
      rw [List.cons_append, dropEndWhile_cons, ih, if_neg (by simp)]
      rfl

namespace Veils

variable {cs masked : List Char}

theorem length (h : Veils cs masked) : masked.length = cs.length := by
  induction h with
  | nil => rfl
  | same c _ ih => rw [List.length_cons, List.length_cons, ih]
  | literal _ inner _ ih => simp [ih]

theorem append_left (w : List Char) (h : Veils cs masked) : Veils (w ++ cs) (w ++ masked) := by
  induction w with
  | nil => exact h
  | cons c w ih => exact .same c ih

/-- The same blanks stand at the start. -/
theorem stripStart (h : Veils cs masked) : Veils (stripStart cs) (stripStart masked) := by
  unfold Text.stripStart
  induction h with
  | nil => exact .nil
  | same c h ih =>
      by_cases hc : isBlank c = true
      · rwa [List.dropWhile_cons_of_pos hc, List.dropWhile_cons_of_pos hc]
      · rw [List.dropWhile_cons_of_neg hc, List.dropWhile_cons_of_neg hc]
        exact .same c h
  | literal hquote inner h ih =>
      have hc := Bool.eq_false_iff.1 hquote
      rw [List.dropWhile_cons_of_neg hc, List.dropWhile_cons_of_neg hc]
      exact .literal hquote inner h

/-- And the same blanks stand at the end. -/
theorem stripEnd (h : Veils cs masked) : Veils (stripEnd cs) (stripEnd masked) := by
  unfold Text.stripEnd
  induction h with
  | nil => exact .nil
  | @same cs masked c h ih =>
      have hnil : dropEndWhile isBlank masked = [] ↔ dropEndWhile isBlank cs = [] := by
        rw [← List.length_eq_zero_iff, ih.length, List.length_eq_zero_iff]
      rw [dropEndWhile_cons, dropEndWhile_cons]
      by_cases hdrop : dropEndWhile isBlank cs = [] ∧ isBlank c = true
      · rw [if_pos hdrop, if_pos ⟨hnil.2 hdrop.1, hdrop.2⟩]
        exact .nil
      · rw [if_neg hdrop, if_neg fun h => hdrop ⟨hnil.1 h.1, h.2⟩]
        exact .same c ih
  | literal hquote inner h ih =>
      rw [← List.cons_append, ← List.cons_append, dropEndWhile_append_cons hquote,
        dropEndWhile_append_cons hquote]
      exact .literal hquote inner ih

/-- Where the blanks of the one text end, those of the other do. -/
theorem strip_eq (h : Veils cs masked) :
    (cs.drop (leadingBlanks masked)).take (strip masked).length = strip cs := by
  have hlead : leadingBlanks masked = leadingBlanks cs := by
    have hsum (cs : List Char) : leadingBlanks cs + (Text.stripStart cs).length = cs.length := by
      rw [leadingBlanks, Text.stripStart, ← List.length_append, List.takeWhile_append_dropWhile]
    have := hsum cs
    have := hsum masked
    have := h.stripStart.length
    have := h.length
    omega
  have hlength : (strip masked).length = (strip cs).length := h.stripStart.stripEnd.length
  rw [hlead, hlength]
  obtain ⟨back, hback⟩ := strip_prefix_drop cs
  rw [← hback]
  exact List.take_left

end Veils

/-- A closed literal is its inside between two quotes, and only the quotes are not blanked. -/
theorem Lexeme.exists_inner_of_terminated {c : Char} {cs : List Char}
    (h : (Lexeme.at c cs).kind = .string) (hclosed : (Lexeme.at c cs).terminated = true) :
    let x := Lexeme.at c cs
    isBlank c = false ∧ ∃ inner, cs.take x.tail = inner ++ [c] ∧
      blankSpan 1 (if x.terminated then x.tail else x.tail + 1) (c :: cs.take x.tail) =
        c :: (List.replicate inner.length ' ' ++ [c]) := by
  intro x
  obtain ⟨hquote, ⟨n, hclose, hx⟩ | ⟨-, hx⟩⟩ := Lexeme.reads_string h
  · obtain ⟨inner, htake, rfl⟩ := exists_take_of_closingQuote? hclose
    refine ⟨by rcases hquote with rfl | rfl <;> decide, inner, ?_, ?_⟩
    · simpa only [x, hx] using htake
    · simp only [x, hx, if_true]
      rw [blankSpan_succ_cons, htake, blankSpan_zero_append]
  · rw [hx] at hclosed
    cases hclosed

/-- Blanking the insides of its literals veils a text. -/
theorem exists_veils {line column : Nat} {cs : List Char} (before : List Char)
    (hcolumn : column = before.length)
    (hwhole : ∀ t ∈ (lexFrom line column cs).1, t.IsWhole) :
    ∃ masked, Veils cs masked ∧
      (lexFrom line column cs).1.foldl Line.blankString (before ++ cs) = before ++ masked := by
  fun_induction lexFrom line column cs generalizing before with
  | case1 => exact ⟨[], .nil, rfl⟩
  | case2 column c cs hskip ih =>
      obtain ⟨masked, hveils, hblanked⟩ := ih (before ++ [c]) (by simp [hcolumn]) hwhole
      refine ⟨c :: masked, .same c hveils, ?_⟩
      simpa using hblanked
  | case3 column c cs hskip lexeme token rest ih =>
      rw [List.forall_mem_cons] at hwhole
      have hle : lexeme.tail ≤ cs.length := Lexeme.tail_at_le c cs
      have hbehind (part : List Char) (hpart : part.length = lexeme.tail) :
          column + 1 + lexeme.tail = (before ++ c :: part).length := by
        rw [hcolumn, List.length_append, List.length_cons, hpart]
        omega
      have hself := blankString_append (t := token) before (cs.drop lexeme.tail) hcolumn rfl
        (List.cons_ne_nil _ _)
      rw [List.cons_append, List.take_append_drop] at hself
      rw [List.foldl_cons, hself]
      by_cases hkind : lexeme.kind = .string
      · -- The quotes of the literal are kept, and they are not blank.
        obtain ⟨hblank, inner, htake, hspan⟩ :=
          Lexeme.exists_inner_of_terminated hkind (hwhole.1.2 hkind)
        have htail : (List.replicate inner.length ' ' ++ [c]).length = lexeme.tail := by
          have hlength := congrArg List.length htake
          rw [List.length_take_of_le hle, List.length_append] at hlength
          rw [List.length_append, List.length_replicate, hlength]
        have hmasked := Token.masked_literal hkind hle line column hspan
        obtain ⟨masked, hveils, hblanked⟩ := ih
          (before ++ c :: (List.replicate inner.length ' ' ++ [c])) (hbehind _ htail) hwhole.2
        refine ⟨c :: (List.replicate inner.length ' ' ++ c :: masked), ?_, ?_⟩
        · rw [← List.take_append_drop lexeme.tail cs, htake, List.append_assoc,
            List.singleton_append]
          exact .literal hblank inner hveils
        · rw [show token.masked = _ from hmasked, String.toList_ofList]
          simpa using hblanked
      · obtain ⟨masked, hveils, hblanked⟩ := ih (before ++ c :: cs.take lexeme.tail)
          (hbehind _ (List.length_take_of_le hle)) hwhole.2
        refine ⟨c :: (cs.take lexeme.tail ++ masked), ?_, ?_⟩
        · have hpart := hveils.append_left (c :: cs.take lexeme.tail)
          rwa [List.cons_append, List.take_append_drop] at hpart
        · rw [Token.masked_of_ne (t := token) hkind]
          simpa [token] using hblanked

/-! ### Lines -/

theorem drop_foldl_blankString {tokens : List Token} {k : Nat} (h : ∀ t ∈ tokens, t.stop ≤ k)
    (cs : List Char) : (tokens.foldl Line.blankString cs).drop k = cs.drop k := by
  induction tokens generalizing cs with
  | nil => rfl
  | cons t ts ih =>
      rw [List.forall_mem_cons] at h
      rw [List.foldl_cons, ih h.2]
      unfold Line.blankString
      split
      · refine List.ext_getElem? fun i => ?_
        have hbehind : ¬k + i < if t.terminated then t.stop - 1 else t.stop := by
          have := h.1
          split <;> omega
        rw [List.getElem?_drop, List.getElem?_drop, blankSpan, List.getElem?_mapIdx]
        simp [hbehind]
      · rfl

variable {l : Line} {before after : List Token} {sign : Token}

/-- Behind a token, the masked code veils the code. -/
theorem Line.veils_behind (hlexed : l.Lexed) (htokens : l.codeTokens = before ++ sign :: after)
    (hwhole : ∀ t ∈ after, t.IsWhole) :
    Veils (l.code.drop sign.stop) (l.masked.drop sign.stop) := by
  have hcode : (lexFrom l.index 0 l.code).1 = before ++ sign :: after := by
    rw [hlexed.code, htokens]
  have hafter := (lexFrom_of_split hcode).2
  rw [Nat.sub_zero] at hafter
  have htiles : Tiles l.code 0 (before ++ sign :: after) := hcode ▸ tiles_lexFrom l.index rfl
  have hstop : ∀ t ∈ before ++ [sign], t.stop ≤ sign.stop := by
    intro t ht
    rcases List.mem_append.1 ht with ht | ht
    · have hord := (List.pairwise_append.1 htiles.ordered).2.2 t ht sign List.mem_cons_self
      have := Token.column_lt_stop (htiles.ne_empty (t := sign) (by simp))
      omega
    · rw [List.mem_singleton.1 ht]
  have hle : sign.stop ≤ l.code.length := (htiles.slice (t := sign) (by simp)).1
  have hsplit : l.masked = after.foldl Line.blankString
      ((before ++ [sign]).foldl Line.blankString l.code) := by
    rw [Line.masked_eq, htokens, ← List.foldl_append, List.append_assoc, List.singleton_append]
  generalize hfront : (before ++ [sign]).foldl Line.blankString l.code = front at hsplit
  have hdrop : front.drop sign.stop = l.code.drop sign.stop := by
    rw [← hfront, drop_foldl_blankString hstop]
  have htake : (front.take sign.stop).length = sign.stop := by
    rw [List.length_take_of_le]
    rwa [← hfront, Line.length_foldl_blankString]
  rw [← hafter] at hwhole
  obtain ⟨masked, hveils, hblanked⟩ := exists_veils (front.take sign.stop) htake.symm hwhole
  rw [hafter, ← hdrop, List.take_append_drop, ← hsplit] at hblanked
  rwa [hblanked, List.drop_left' htake]

end Polyloft
