import Polyloft.Proofs.Token.Region
import Polyloft.Text.Cursor

/-!
# Polyloft.Proofs.Token.Lossless

Lexing a line loses nothing. The tokens of a line are pieces of its text, one behind the other, and
what stands between them are separators; so the columns of tokens are columns of the text, and no
character is skipped, read twice or moved. The one line that is not taken apart in this way is a
line of blanks inside a block comment, which has no token.

## Proof shape

`Tiles` says how tokens are laid out over a text from a position on: a separator is passed over, or
a token starts here and the rest starts where it stops. The lexer builds such a layout step by step
(`tiles_lexFrom`, `tiles_lexLine`), and what is said of the tokens of a line is read off the layout
by induction.
-/

namespace Polyloft

open Polyloft.Text

/-! ### Lexemes -/

namespace Lexeme

theorem tail_number_le (cs : List Char) : (number cs).tail ≤ cs.length := by
  have hsplit := congrArg List.length (List.takeWhile_append_dropWhile (p := isDecimal) (l := cs))
  rw [List.length_append] at hsplit
  unfold number
  dsimp only
  split
  · rename_i d ds hrest
    rw [hrest, List.length_cons, List.length_cons] at hsplit
    have hdigits := (List.takeWhile_sublist (l := ds) isDecimal).length_le
    split
    · dsimp only
      omega
    · dsimp only
      omega
  · dsimp only
    omega

theorem tail_sign_le (c : Char) (cs : List Char) : (sign c cs).tail ≤ cs.length := by
  unfold sign
  split
  · rename_i op hop
    have hfound := List.find?_some hop
    have hle := (List.isPrefixOf_iff_prefix.1 hfound).length_le
    rw [String.length_toList, List.length_cons] at hle
    dsimp only
    omega
  · split <;> exact Nat.zero_le _

/-- A lexeme lies on the text. -/
theorem tail_at_le (c : Char) (cs : List Char) : (Lexeme.at c cs).tail ≤ cs.length := by
  have hword (cs : List Char) := (List.takeWhile_sublist (l := cs) isWord).length_le
  by_cases hcomment : (Lexeme.at c cs).kind = .comment
  · exact tail_le_of_comment hcomment
  · rw [at_eq] at hcomment ⊢
    split at hcomment
    · split at hcomment
      · exact absurd rfl hcomment
      · split at hcomment <;> exact absurd rfl hcomment
    · rename_i hstart
      rw [if_neg hstart]
      split
      · split
        · rename_i hmarker
          obtain ⟨a, ha, -⟩ := (Option.any_eq_true ..).1 hmarker
          obtain ⟨ds, rfl⟩ := List.head?_eq_some_iff.1 ha
          have := hword ds
          dsimp only [List.tail_cons, List.length_cons]
          omega
        · exact Nat.zero_le _
      · split
        · split
          · exact Region.length_le_of_closingQuote? ‹_›
          · exact Nat.le_refl _
        · split
          · exact tail_number_le cs
          · split
            · exact hword cs
            · exact tail_sign_le c cs

theorem terminated_number (cs : List Char) : (number cs).terminated = true := by
  unfold number
  dsimp only
  repeat' split
  all_goals rfl

theorem terminated_sign (c : Char) (cs : List Char) : (sign c cs).terminated = true := by
  unfold sign
  repeat' split
  all_goals rfl

/-- Only a string literal can lack its end, and then it takes the rest of the line. -/
theorem eq_of_unterminated {c : Char} {cs : List Char} (h : (Lexeme.at c cs).terminated = false) :
    Lexeme.at c cs = ⟨.string, cs.length, false, false⟩ := by
  rw [at_eq] at h ⊢
  split at h
  · split at h
    · simp at h
    · split at h <;> simp at h
  · rename_i hstart
    rw [if_neg hstart]
    split at h
    · split at h <;> simp at h
    · rename_i hat
      rw [if_neg hat]
      split at h
      · rename_i hquote
        rw [if_pos hquote]
        split at h
        · simp at h
        · rfl
      · split at h
        · simp [terminated_number] at h
        · split at h
          · simp [name] at h
          · simp [terminated_sign] at h

end Lexeme

/-! ### Layouts -/

/-- The tokens laid out over a text from a position on, with separators between them. -/
inductive Tiles (text : List Char) : Nat → List Token → Prop where
  | done {k : Nat} (hk : text.length ≤ k) : Tiles text k []
  | skip {k : Nat} {c : Char} {tokens : List Token} (hc : text[k]? = some c)
      (hskip : isSkipped c = true) (h : Tiles text (k + 1) tokens) : Tiles text k tokens
  | token {t : Token} {tokens : List Token} (hne : t.text ≠ "") (hle : t.stop ≤ text.length)
      (hslice : t.text.toList = Span.slice ⟨t.column, t.stop⟩ text)
      (hopen : t.terminated = false → t.stop = text.length) (h : Tiles text t.stop tokens) :
      Tiles text t.column (t :: tokens)

theorem Token.column_lt_stop {t : Token} (h : t.text ≠ "") : t.column < t.stop := by
  have hlength : t.text.length ≠ 0 := fun hzero => h (String.length_eq_zero_iff.1 hzero)
  rw [Token.stop]
  omega

namespace Tiles

variable {text : List Char} {k : Nat} {tokens : List Token} {t : Token}

theorem le_column (h : Tiles text k tokens) (ht : t ∈ tokens) : k ≤ t.column := by
  induction h with
  | done => simp at ht
  | skip _ _ _ ih => exact Nat.le_of_succ_le (ih ht)
  | @token u tokens hne hle hslice hopen h ih =>
      rcases List.mem_cons.1 ht with rfl | ht
      · exact Nat.le_refl _
      · exact Nat.le_trans (Nat.le_of_lt (Token.column_lt_stop hne)) (ih ht)

theorem ne_empty (h : Tiles text k tokens) (ht : t ∈ tokens) : t.text ≠ "" := by
  induction h with
  | done => simp at ht
  | skip _ _ _ ih => exact ih ht
  | token hne _ _ _ _ ih =>
      rcases List.mem_cons.1 ht with rfl | ht
      · exact hne
      · exact ih ht

theorem slice (h : Tiles text k tokens) (ht : t ∈ tokens) :
    t.stop ≤ text.length ∧ t.text.toList = Span.slice ⟨t.column, t.stop⟩ text := by
  induction h with
  | done => simp at ht
  | skip _ _ _ ih => exact ih ht
  | token _ hle hslice _ _ ih =>
      rcases List.mem_cons.1 ht with rfl | ht
      · exact ⟨hle, hslice⟩
      · exact ih ht

theorem ordered (h : Tiles text k tokens) :
    tokens.Pairwise fun t u => t.column < u.column ∧ t.stop ≤ u.column := by
  induction h with
  | done => exact .nil
  | skip _ _ _ ih => exact ih
  | token hne _ _ _ h ih =>
      refine List.pairwise_cons.2 ⟨?_, ih⟩
      intro u hu
      have hstop := h.le_column hu
      exact ⟨Nat.lt_of_lt_of_le (Token.column_lt_stop hne) hstop, hstop⟩

/-- Nothing comes behind a token that takes the rest of the line. -/
theorem terminated (h : Tiles text k tokens) (ht : t ∈ tokens.dropLast) : t.terminated = true := by
  induction h with
  | done => simp at ht
  | skip _ _ _ ih => exact ih ht
  | @token u tokens _ _ _ hopen h ih =>
      cases tokens with
      | nil => simp at ht
      | cons v tokens =>
          rw [List.dropLast_cons_cons] at ht
          rcases List.mem_cons.1 ht with rfl | ht
          · -- It would reach the end of the text, where no token fits any more.
            rw [← Bool.not_eq_false]
            intro hfalse
            have hv : v ∈ v :: tokens := List.mem_cons_self ..
            have hcolumn := h.le_column hv
            have hstop := Token.column_lt_stop (h.ne_empty hv)
            have hbound := (h.slice hv).1
            have := hopen hfalse
            omega
          · exact ih ht

/-- What no token stands over is a separator. -/
theorem separated (h : Tiles text k tokens) {j : Nat} {c : Char} (hj : k ≤ j)
    (hc : text[j]? = some c) (hnone : ∀ t ∈ tokens, ¬t.StandsOver j) : isSkipped c = true := by
  induction h with
  | done hk =>
      rw [List.getElem?_eq_none (Nat.le_trans hk hj)] at hc
      simp at hc
  | skip hd hskip _ ih =>
      rcases Nat.eq_or_lt_of_le hj with rfl | hlt
      · rw [hd] at hc
        exact Option.some.inj hc ▸ hskip
      · exact ih hlt hnone
  | @token t tokens _ _ _ _ _ ih =>
      rw [List.forall_mem_cons] at hnone
      refine ih ?_ hnone.2
      rw [← Nat.not_lt]
      exact fun hlt => hnone.1 ⟨hj, hlt⟩

end Tiles

/-! ### Lexing -/

/-- The lexer lays its tokens out over the text. -/
theorem tiles_lexFrom (line : Nat) {text cs : List Char} {column : Nat}
    (hcs : text.drop column = cs) : Tiles text column (lexFrom line column cs).1 := by
  fun_induction lexFrom line column cs with
  | case1 column => exact .done (List.drop_eq_nil_iff.1 hcs)
  | case2 column c cs hskip ih =>
      refine .skip ?_ hskip (ih ?_)
      · rw [← List.head?_drop, hcs, List.head?_cons]
      · rw [← List.drop_drop, hcs, List.drop_succ_cons, List.drop_zero]
  | case3 column c cs hskip lexeme token rest ih =>
      have htail : lexeme.tail ≤ cs.length := Lexeme.tail_at_le c cs
      have hlength : (text.drop column).length = cs.length + 1 := by rw [hcs, List.length_cons]
      rw [List.length_drop] at hlength
      have hstop : token.stop = column + 1 + lexeme.tail := by
        simp only [token, Token.stop, String.length_ofList, List.length_cons,
          List.length_take_of_le htail]
        omega
      refine .token (t := token) ?_ ?_ ?_ ?_ ?_
      · simp [token]
      · omega
      · rw [Span.slice, hstop, Nat.add_assoc, Nat.add_sub_cancel_left, Nat.add_comm 1]
        simp only [token]
        rw [hcs, List.take_succ_cons, String.toList_ofList]
      · intro hopen
        have hx : lexeme = ⟨.string, cs.length, false, false⟩ := Lexeme.eq_of_unterminated hopen
        rw [hstop, hx]
        dsimp only
        omega
      · rw [hstop]
        refine ih ?_
        rw [Nat.add_assoc, ← List.drop_drop, hcs, Nat.add_comm, List.drop_succ_cons]

theorem two_le_of_commentClose? {cs : List Char} {n : Nat} (h : commentClose? cs = some n) :
    2 ≤ n := by
  fun_induction commentClose? cs generalizing n with
  | case1 cs => exact Nat.le_of_eq (Option.some.inj h)
  | case2 c cs hclose ih =>
      obtain ⟨m, hm, rfl⟩ := Option.map_eq_some_iff.1 h
      exact Nat.le_succ_of_le (ih hm)
  | case3 => simp at h

/-- So does the lexer of a whole line, unless it is blank and inside of a comment. -/
theorem tiles_lexLine {text : List Char} (line : Nat) {inComment : Bool}
    (hblank : ¬(inComment = true ∧ strip text = [])) :
    Tiles text 0 (lexLine text line inComment).1 := by
  cases inComment with
  | false => exact tiles_lexFrom line rfl
  | true =>
      have hstrip : strip text ≠ [] := fun h => hblank ⟨rfl, h⟩
      cases hclose : commentClose? text with
      | none =>
          have htext : text ≠ [] := by
            rintro rfl
            exact hstrip rfl
          simp only [lexLine, hclose, if_true, if_neg hstrip]
          refine .token (t := ⟨.comment, String.ofList text, line, 0, true⟩) ?_ ?_ ?_ ?_ (.done ?_)
          all_goals simp [Token.stop, Span.slice, htext]
      | some n =>
          have hle := commentClose?_le hclose
          have hn : (text.take n).length = n := List.length_take_of_le hle
          have hpos := two_le_of_commentClose? hclose
          have hrest : Tiles text n (lexFrom line n (text.drop n)).1 := tiles_lexFrom line rfl
          simp only [lexLine, hclose, if_true]
          refine .token (t := ⟨.comment, String.ofList (text.take n), line, 0, true⟩) ?_ ?_ ?_ ?_ ?_
          · intro hempty
            rw [← hn, String.ofList_eq_empty_iff.1 hempty] at hpos
            simp at hpos
          · simpa [Token.stop, hn] using hle
          · simp [Token.stop, hn, Span.slice]
          · simp
          · simpa [Token.stop, hn] using hrest

/-! ### Lines -/

/-- Tokens from which a text can be had back, but for the separators between them. -/
structure Lossless (text : List Char) (tokens : List Token) : Prop where
  nonempty : ∀ t ∈ tokens, t.text ≠ ""
  ordered : tokens.Pairwise fun t u => t.column < u.column ∧ t.stop ≤ u.column
  slice : ∀ t ∈ tokens,
    t.stop ≤ text.length ∧ t.text.toList = Span.slice ⟨t.column, t.stop⟩ text
  /-- Only the last token can lack its end. -/
  terminated : ∀ t ∈ tokens.dropLast, t.terminated = true
  separated : ∀ k c, text[k]? = some c → (∀ t ∈ tokens, ¬t.StandsOver k) → isSkipped c = true

theorem Tiles.lossless {text : List Char} {tokens : List Token} (h : Tiles text 0 tokens) :
    Lossless text tokens where
  nonempty _ := h.ne_empty
  ordered := h.ordered
  slice _ := h.slice
  terminated _ := h.terminated
  separated _ _ := h.separated (Nat.zero_le _)

theorem strip_of_all_isBlank {text : List Char} (h : text.all isBlank = true) :
    strip text = [] := by
  have hstart : stripStart text = [] := List.dropWhile_eq_nil_iff.2 (List.all_eq_true.1 h)
  rw [strip, hstart]
  rfl

/-- Lexing a line loses nothing, whether or not a comment is open where it starts. A line of blanks
that does not close the comment has no token, and the comment stays open. -/
theorem lexing_is_lossless (text : List Char) (line : Nat) (inComment : Bool) :
    let lexed := lexLine text line inComment
    if inComment = true ∧ text.all isBlank = true ∧ commentClose? text = none then
      lexed = ([], true)
    else Lossless text lexed.1 := by
  intro lexed
  by_cases hblank : inComment = true ∧ strip text = []
  · obtain ⟨rfl, hstrip⟩ := hblank
    have hall := all_isBlank_of_strip hstrip
    have hclose := commentClose?_of_strip hstrip
    rw [if_pos ⟨rfl, hall, hclose⟩]
    simp [lexed, lexLine, hclose, hstrip]
  · rw [if_neg]
    · exact (tiles_lexLine line hblank).lossless
    · rintro ⟨hin, hall, -⟩
      exact hblank ⟨hin, strip_of_all_isBlank hall⟩

end Polyloft
