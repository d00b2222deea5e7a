import Polyloft.Proofs.BlankLine.Document
import Polyloft.Rule

/-!
# Polyloft.Proofs.Place.Token

Places on a line. The tokens of a line stand one behind the other inside its text (`Line.Fits`), so
a token, the way from a token to a later one and the code of a line without the blanks around it are
all places on the line: a place starts and stops inside the raw text, in this order
(`Line.Covers`).
-/

namespace Polyloft

open Polyloft.Text

/-! ### Tokens -/

/-- A token read from a text stands inside of it. -/
theorem bounds_of_mem_lexFrom {line column : Nat} {cs : List Char} {t : Token}
    (h : t ∈ (lexFrom line column cs).1) :
    column ≤ t.column ∧ t.stop ≤ column + cs.length := by
  fun_induction lexFrom line column cs with
  | case1 column => simp at h
  | case2 column c cs hskip ih =>
      have := ih h
      rw [List.length_cons]
      omega
  | case3 column c cs hskip lexeme token rest ih =>
      rcases List.mem_cons.1 h with rfl | h
      · refine ⟨Nat.le_refl _, ?_⟩
        simp only [token, Token.stop, String.length_ofList, List.length_cons, List.length_take]
        omega
      · obtain ⟨hcolumn, hstop⟩ := ih h
        -- Nothing is left behind a token that reaches to the end.
        have htail : lexeme.tail < cs.length := by
          rcases Nat.lt_or_ge lexeme.tail cs.length with hlt | hge
          · exact hlt
          · simp only [rest, List.drop_eq_nil_of_le hge] at h
            simp [lexFrom] at h
        rw [List.length_drop] at hstop
        rw [List.length_cons]
        omega

/-- The tokens of a text stand one behind the other. -/
theorem pairwise_lexFrom (line column : Nat) (cs : List Char) :
    (lexFrom line column cs).1.Pairwise fun t u => t.stop ≤ u.column := by
  fun_induction lexFrom line column cs with
  | case1 column => exact .nil
  | case2 column c cs hskip ih => exact ih
  | case3 column c cs hskip lexeme token rest ih =>
      refine List.pairwise_cons.2 ⟨?_, ih⟩
      intro u hu
      have hcolumn := (bounds_of_mem_lexFrom hu).1
      simp only [token, Token.stop, String.length_ofList, List.length_cons, List.length_take]
      omega

/-- The tokens of a line stand on it, inside its text and one behind the other. -/
structure Line.Fits (l : Line) : Prop where
  line_eq : ∀ t ∈ l.tokens, t.line = l.index
  stop_le : ∀ t ∈ l.tokens, t.stop ≤ l.text.length
  ordered : l.tokens.Pairwise fun t u => t.stop ≤ u.column

theorem Line.fits_lexLine (text : List Char) (n : Nat) (inComment : Bool) :
    (Line.mk n text (lexLine text n inComment).1).Fits := by
  refine ⟨fun t ht => line_of_mem_lexLine ht, ?_, ?_⟩
  · intro t ht
    dsimp only at ht ⊢
    unfold lexLine at ht
    split at ht
    · split at ht
      · split at ht
        · simp at ht
        · rw [List.mem_singleton.1 ht]
          simp [Token.stop]
      · rename_i k _
        rcases List.mem_cons.1 ht with rfl | ht
        · simp only [Token.stop, Nat.zero_add, String.length_ofList, List.length_take]
          exact Nat.min_le_right _ _
        · have hstop := (bounds_of_mem_lexFrom ht).2
          have hk : k < text.length := by
            rcases Nat.lt_or_ge k text.length with hlt | hge
            · exact hlt
            · rw [List.drop_eq_nil_of_le hge] at ht
              simp [lexFrom] at ht
          rw [List.length_drop] at hstop
          omega
    · simpa using (bounds_of_mem_lexFrom ht).2
  · dsimp only
    unfold lexLine
    split
    · split
      · split
        · exact .nil
        · exact List.pairwise_singleton _ _
      · refine List.pairwise_cons.2 ⟨?_, pairwise_lexFrom _ _ _⟩
        intro u hu
        have hcolumn := (bounds_of_mem_lexFrom hu).1
        simp only [Token.stop, String.length_ofList, List.length_take]
        omega
    · exact pairwise_lexFrom _ _ _

theorem fits_of_mem_linesFrom {n : Nat} {inComment : Bool} {texts : List (List Char)} {l : Line}
    (hl : l ∈ linesFrom n inComment texts) : l.Fits := by
  induction texts generalizing n inComment with
  | nil => simp at hl
  | cons text texts ih =>
      rw [linesFrom_cons] at hl
      rcases List.mem_cons.1 hl with rfl | hl
      · exact Line.fits_lexLine text n inComment
      · exact ih hl

theorem map_text_linesFrom (n : Nat) (inComment : Bool) (texts : List (List Char)) :
    (linesFrom n inComment texts).map Line.text = texts := by
  induction texts generalizing n inComment with
  | nil => rfl
  | cons text texts ih => rw [linesFrom_cons, List.map_cons, ih]

theorem Document.fits_of_mem {text : List Char} {uri : Option String} {l : Line}
    (hl : l ∈ (ofText text uri).lines) : l.Fits := by
  rw [lines_ofText] at hl
  exact fits_of_mem_linesFrom hl

theorem Line.mem_tokens {l : Line} {t : Token} (ht : t ∈ l.codeTokens) : t ∈ l.tokens :=
  (List.mem_filter.1 ht).1

/-! ### Places -/

/-- The range is a place on the line. -/
structure Line.Covers (l : Line) (r : Range) : Prop where
  line_eq : r.line = l.index
  nonneg : 0 ≤ r.start
  start_le : r.start ≤ r.stop
  stop_le : r.stop ≤ l.text.length

/-- A place given by columns. -/
theorem Line.covers_mk {l : Line} {start stop : Nat} (hle : start ≤ stop)
    (hstop : stop ≤ l.text.length) : l.Covers ⟨l.index, start, stop⟩ :=
  ⟨rfl, Int.natCast_nonneg _, Int.ofNat_le.2 hle, Int.ofNat_le.2 hstop⟩

/-- The code of a line without the blanks around it. -/
theorem Line.covers_codeRange (l : Line) : l.Covers l.codeRange := by
  refine Line.covers_mk (List.takeWhile_sublist _).length_le ?_
  rw [← l.length_code]
  exact length_dropEndWhile_le _ _

namespace Line.Fits

variable {l : Line} (h : l.Fits) {t u : Token}
include h

theorem covers_range (ht : t ∈ l.tokens) : l.Covers t.range := by
  rw [Token.range, h.line_eq t ht]
  exact Line.covers_mk (Nat.le_add_right _ _) (h.stop_le t ht)

theorem covers_rangeTo (ht : t ∈ l.tokens) (hu : u ∈ l.tokens) (hle : t.column ≤ u.stop) :
    l.Covers (t.rangeTo u) := by
  rw [Token.rangeTo, h.line_eq t ht]
  exact Line.covers_mk hle (h.stop_le u hu)

theorem pairwise_codeTokens : l.codeTokens.Pairwise fun t u => t.stop ≤ u.column :=
  h.ordered.filter _

end Line.Fits

/-! ### Neighbours -/

/-- A token with its neighbours, put in a row again. -/
theorem before_append_of_mem_spotsAfter {before tokens : List Token} {s : Spot}
    (hs : s ∈ spotsAfter before tokens) :
    s.before.reverse ++ s.token :: s.after = before.reverse ++ tokens := by
  induction tokens generalizing before with
  | nil => simp [spotsAfter] at hs
  | cons t tokens ih =>
      rcases List.mem_cons.1 hs with rfl | hs
      · rfl
      · rw [ih hs, List.reverse_cons, List.append_assoc]
        rfl

theorem before_append_of_mem_spots {tokens : List Token} {s : Spot} (hs : s ∈ spots tokens) :
    s.before.reverse ++ s.token :: s.after = tokens :=
  before_append_of_mem_spotsAfter hs

theorem Line.mem_of_spot {l : Line} {s : Spot} {t : Token} (hs : s ∈ spots l.codeTokens)
    (ht : t ∈ s.before.reverse ++ s.token :: s.after) : t ∈ l.tokens := by
  rw [before_append_of_mem_spots hs] at ht
  exact Line.mem_tokens ht

namespace Line.Fits

variable {l : Line} (h : l.Fits) {s : Spot} {t u : Token}
include h

theorem covers_token (hs : s ∈ spots l.codeTokens) : l.Covers s.token.range :=
  h.covers_range (Line.mem_of_spot hs (by simp))

theorem covers_next (hs : s ∈ spots l.codeTokens) (hu : s.next? = some u) :
    l.Covers u.range :=
  h.covers_range (Line.mem_of_spot hs (by simp [List.mem_of_head? hu]))

/-- From a token through the next one. -/
theorem covers_token_next (hs : s ∈ spots l.codeTokens) (hu : s.next? = some u) :
    l.Covers (s.token.rangeTo u) := by
  have hu := List.mem_of_head? hu
  have hordered := h.pairwise_codeTokens
  rw [← before_append_of_mem_spots hs, List.pairwise_append, List.pairwise_cons] at hordered
  have hle := hordered.2.1.1 u hu
  refine h.covers_rangeTo (Line.mem_of_spot hs (by simp)) (Line.mem_of_spot hs (by simp [hu])) ?_
  simp only [Token.stop] at hle ⊢
  omega

/-- From the token before through the one behind. -/
theorem covers_previous_next (hs : s ∈ spots l.codeTokens) (ht : s.previous? = some t)
    (hu : s.next? = some u) : l.Covers ⟨l.index, t.column, u.stop⟩ := by
  have ht := List.mem_of_head? ht
  have hu := List.mem_of_head? hu
  have hordered := h.pairwise_codeTokens
  rw [← before_append_of_mem_spots hs, List.pairwise_append] at hordered
  have hle := hordered.2.2 t (List.mem_reverse.2 ht) u (List.mem_cons_of_mem _ hu)
  refine Line.covers_mk ?_ (h.stop_le u (Line.mem_of_spot hs (by simp [hu])))
  simp only [Token.stop] at hle ⊢
  omega

end Line.Fits

/-- Two places in a list are the same if what stands there is not related either way. -/
theorem pairwise_split_unique {α : Type} {R : α → α → Prop} {p p' q q' : List α} {x x' : α}
    (h : (p ++ x :: q).Pairwise R) (heq : p ++ x :: q = p' ++ x' :: q') (hlt : ¬R x x')
    (hgt : ¬R x' x) : p = p' ∧ x :: q = x' :: q' := by
  induction p generalizing p' with
  | nil =>
      cases p' with
      | nil => exact ⟨rfl, heq⟩
      | cons y p' =>
          obtain ⟨-, rfl⟩ := List.cons.inj heq
          exact absurd ((List.pairwise_cons.1 h).1 x' (by simp)) hlt
  | cons y p ih =>
      cases p' with
      | nil =>
          obtain ⟨rfl, -⟩ := List.cons.inj heq
          exact absurd ((List.pairwise_cons.1 h).1 x (by simp)) hgt
      | cons y' p' =>
          obtain ⟨rfl, htail⟩ := List.cons.inj heq
          obtain ⟨rfl, hrest⟩ := ih (List.pairwise_cons.1 h).2 htail
          exact ⟨rfl, hrest⟩

/-- A token of a line is the next one of one spot only. -/
theorem Line.Fits.eq_of_next_range {l : Line} (h : l.Fits) {s s' : Spot} {t t' : Token}
    (hs : s ∈ spots l.codeTokens) (hs' : s' ∈ spots l.codeTokens) (ht : s.next? = some t)
    (ht' : s'.next? = some t') (hrange : t.range = t'.range) (hne : t.text ≠ "") : s = s' := by
  obtain ⟨before, token, after⟩ := s
  obtain ⟨before', token', after'⟩ := s'
  obtain ⟨rest, rfl⟩ := List.head?_eq_some_iff.1 ht
  obtain ⟨rest', rfl⟩ := List.head?_eq_some_iff.1 ht'
  have hcolumn : t.column = t'.column := Int.ofNat.inj (congrArg Range.start hrange)
  have hstop : t.stop = t'.stop := Int.ofNat.inj (congrArg Range.stop hrange)
  have hlength : 0 < t.text.length := by
    rw [Nat.pos_iff_ne_zero]
    exact fun hzero => hne (String.length_eq_zero_iff.1 hzero)
  have hline : (before.reverse ++ [token]) ++ t :: rest = l.codeTokens := by
    simpa using before_append_of_mem_spots hs
  have hline' : (before'.reverse ++ [token']) ++ t' :: rest' = l.codeTokens := by
    simpa using before_append_of_mem_spots hs'
  have hpair := h.pairwise_codeTokens
  rw [← hline] at hline' hpair
  obtain ⟨hbefore, hafter⟩ := pairwise_split_unique hpair hline'.symm
    (by simp only [Token.stop] at *; omega) (by simp only [Token.stop] at *; omega)
  obtain ⟨hreverse, htoken⟩ := List.append_inj' hbefore rfl
  obtain rfl := List.reverse_inj.1 hreverse
  obtain rfl := List.singleton_inj.1 htoken
  rw [hafter]

end Polyloft
