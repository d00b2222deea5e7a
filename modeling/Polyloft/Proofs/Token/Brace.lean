import Mathlib.Data.List.Pairwise
import Polyloft.Proofs.Place.Token
import Polyloft.Proofs.Token.Masked
import Polyloft.Proofs.Token.Numeral

/-!
# Polyloft.Proofs.Token.Brace

The braces of a document. Among its code tokens the braces stand one behind the other, over all
lines, and they are exactly the characters `{` and `}` that no comment and no string literal covers
(`Document.exists_brace_iff`).

## Proof shape

Every character that separates nothing is covered by a token. No lexeme but a comment, a literal or
the brace itself has a brace in it (`Lexeme.tail_of_brace_mem`), so the token over a brace is the
brace or one of the other two.
-/

namespace Polyloft

open Polyloft.Text

/-! ### Braces among tokens -/

namespace Token

/-- An opening or a closing brace. -/
def isBrace (t : Token) : Bool :=
  t.isSymbol "\x7b" || t.isSymbol "\x7d"

variable {t : Token}

theorem isSymbol_closing_of_opening (h : t.isSymbol "\x7b" = true) :
    t.isSymbol "\x7d" = false := by
  rw [isSymbol, Bool.and_eq_true, beq_iff_eq] at h
  simp [isSymbol, h.2]

theorem isBrace_of_opening (h : t.isSymbol "\x7b" = true) : t.isBrace = true := by
  rw [isBrace, h, Bool.true_or]

theorem isBrace_of_closing (h : t.isSymbol "\x7d" = true) : t.isBrace = true := by
  rw [isBrace, h, Bool.or_true]

theorem isBrace_eq_false (hopening : ¬t.isSymbol "\x7b" = true)
    (hclosing : ¬t.isSymbol "\x7d" = true) : t.isBrace = false := by
  simp [isBrace, hopening, hclosing]

end Token

/-- The braces of a token sequence, in their order. -/
def braces (tokens : List Token) : List Token :=
  tokens.filter Token.isBrace

theorem braces_cons_of_isBrace {t : Token} {ts : List Token} (ht : t.isBrace = true) :
    braces (t :: ts) = t :: braces ts :=
  List.filter_cons_of_pos ht

theorem braces_cons_of_not_isBrace {t : Token} {ts : List Token} (ht : t.isBrace = false) :
    braces (t :: ts) = braces ts :=
  List.filter_cons_of_neg (by simp [ht])

/-! ### Braces in a text -/

/-- The token stands before another one, on the same line or on an earlier one. -/
def Token.Precedes (t u : Token) : Prop :=
  t.line < u.line ∨ t.line = u.line ∧ t.stop ≤ u.column

/-- The code tokens of a document stand one behind the other. -/
theorem Document.pairwise_codeTokens (text : List Char) (uri : Option String) :
    (ofText text uri).codeTokens.Pairwise Token.Precedes := by
  rw [codeTokens, List.pairwise_flatMap]
  constructor
  · intro l hl
    have hfits := fits_of_mem hl
    refine hfits.pairwise_codeTokens.imp_of_mem fun ht hu hle => .inr ⟨?_, hle⟩
    rw [hfits.line_eq _ (Line.mem_tokens ht), hfits.line_eq _ (Line.mem_tokens hu)]
  · refine (isNumbered_ofText text uri).pairwise_index.imp_of_mem fun hl hm hlt t ht u hu => .inl ?_
    rwa [(fits_of_mem hl).line_eq t (Line.mem_tokens ht),
      (fits_of_mem hm).line_eq u (Line.mem_tokens hu)]

namespace Token

variable {t u : Token}

theorem length_text_of_isBrace (h : t.isBrace = true) : t.text.length = 1 := by
  rw [isBrace, isSymbol, isSymbol, Bool.or_eq_true, Bool.and_eq_true, Bool.and_eq_true, beq_iff_eq,
    beq_iff_eq] at h
  rcases h with ⟨-, h⟩ | ⟨-, h⟩ <;> rw [h] <;> rfl

theorem range_ne_of_precedes (h : t.Precedes u) (ht : t.isBrace = true) :
    t.range ≠ u.range := by
  intro heq
  have hline : t.line = u.line := Int.ofNat.inj (congrArg Range.line heq)
  have hcolumn : t.column = u.column := Int.ofNat.inj (congrArg Range.start heq)
  rcases h with h | ⟨-, h⟩
  · omega
  · rw [stop, length_text_of_isBrace ht] at h
    omega

end Token

namespace Lexeme

/-- No sign but punctuation has a brace in it. -/
theorem tail_of_brace_mem_sign {c d : Char} {cs : List Char} (hd : d = '{' ∨ d = '}')
    (hmem : d ∈ c :: cs.take (sign c cs).tail) :
    c = d ∧ (sign c cs).kind = .punct ∧ (sign c cs).tail = 0 := by
  unfold sign at hmem ⊢
  split at hmem
  · rename_i op hop
    have hall : (operators.all fun op => op.toList.all fun e => e != '{' && e != '}') = true := by
      decide +kernel
    dsimp only at hmem
    rw [take_of_operatorAt? hop] at hmem
    have hbrace := List.all_eq_true.1 (List.all_eq_true.1 hall op (List.mem_of_find?_eq_some hop)) d
      hmem
    rcases hd with rfl | rfl <;> simp at hbrace
  · have hone : d = c := by split at hmem <;> simpa using hmem
    subst hone
    have hpunct : isPunctuation d = true := by rcases hd with rfl | rfl <;> decide
    rw [if_pos hpunct]
    exact ⟨rfl, rfl, rfl⟩

/-- Where a brace is no part of a comment or a literal, it is a token of its own. -/
theorem tail_of_brace_mem {c d : Char} {cs : List Char} (hd : d = '{' ∨ d = '}')
    (hmem : d ∈ c :: cs.take (Lexeme.at c cs).tail)
    (hstring : (Lexeme.at c cs).kind ≠ .string) (hcomment : (Lexeme.at c cs).kind ≠ .comment) :
    c = d ∧ (Lexeme.at c cs).kind = .punct ∧ (Lexeme.at c cs).tail = 0 := by
  have hword : isWord d = false := by rcases hd with rfl | rfl <;> decide +kernel
  have hrun (ds : List Char) : d ∉ ds.takeWhile isWord := fun h => by
    rw [List.mem_takeWhile_imp h] at hword
    simp at hword
  have hstart {a : Char} (ha : isNameStart a = true) : d ≠ a := by
    rintro rfl
    rw [isWord_of_isNameStart ha] at hword
    simp at hword
  have hat := at_eq c cs
  generalize Lexeme.at c cs = x at hat hmem hstring hcomment ⊢
  split at hat
  · -- A comment.
    split at hat
    · exact absurd (congrArg Lexeme.kind hat) hcomment
    · split at hat <;> exact absurd (congrArg Lexeme.kind hat) hcomment
  · split at hat
    · rename_i hmark
      have hne : d ≠ c := by rcases hd with rfl | rfl <;> simp [hmark]
      split at hat
      · rename_i hname
        obtain ⟨a, ha, hname⟩ := (Option.any_eq_true ..).1 hname
        obtain ⟨ds, rfl⟩ := List.head?_eq_some_iff.1 ha
        rw [hat, List.tail_cons, Nat.add_comm, List.take_succ_cons, take_length_takeWhile,
          List.mem_cons, List.mem_cons] at hmem
        exact absurd hmem (by simp [hne, hstart hname, hrun])
      · simp [hat, hne] at hmem
    · split at hat
      · split at hat <;> exact absurd (congrArg Lexeme.kind hat) hstring
      · split at hat
        · rename_i hdecimal
          rw [hat] at hmem
          rcases isDecimal_or_eq_of_isNumeral (isNumeral_number cs hdecimal) hmem with h | h
          · rcases hd with rfl | rfl <;> exact absurd h (by decide +kernel)
          · rcases hd with rfl | rfl <;> exact absurd h (by decide)
        · split at hat
          · rename_i hname
            rw [hat, name, take_length_takeWhile, List.mem_cons] at hmem
            exact absurd hmem (by simp [hstart hname, hrun])
          · rw [hat] at hmem ⊢
            exact tail_of_brace_mem_sign hd hmem

end Lexeme

/-- What is neither a comment nor a literal and has a brace in it is this brace. -/
theorem text_of_brace_mem {text : List Char} {line : Nat} {inComment : Bool} {t : Token}
    (ht : t ∈ (lexLine text line inComment).1) {d : Char} (hd : d = '{' ∨ d = '}')
    (hmem : d ∈ t.text.toList) (hstring : t.kind ≠ .string) (hcomment : t.kind ≠ .comment) :
    t.kind = .punct ∧ t.text = String.ofList [d] := by
  have hfrom {column : Nat} {cs : List Char} (ht : t ∈ (lexFrom line column cs).1) :
      t.kind = .punct ∧ t.text = String.ofList [d] := by
    obtain ⟨c, ds, k, -, -, rfl⟩ := exists_lexeme_of_mem ht
    rw [String.toList_ofList] at hmem
    obtain ⟨rfl, hkind, htail⟩ := Lexeme.tail_of_brace_mem hd hmem hstring hcomment
    exact ⟨hkind, by simp only [htail, List.take_zero]⟩
  unfold lexLine at ht
  split at ht
  · split at ht
    · split at ht
      · simp at ht
      · rw [List.mem_singleton.1 ht] at hcomment
        exact absurd rfl hcomment
    · rcases List.mem_cons.1 ht with rfl | ht
      · exact absurd rfl hcomment
      · exact hfrom ht
  · exact hfrom ht

/-- Two tokens of a line stand apart. -/
theorem Line.Fits.apart {l : Line} (h : l.Fits) {t u : Token} (ht : t ∈ l.tokens)
    (hu : u ∈ l.tokens) (hne : t ≠ u) : t.stop ≤ u.column ∨ u.stop ≤ t.column := by
  have hsymm : Std.Symm fun t u : Token => t.stop ≤ u.column ∨ u.stop ≤ t.column :=
    ⟨fun _ _ => Or.symm⟩
  have happart : l.tokens.Pairwise fun t u => t.stop ≤ u.column ∨ u.stop ≤ t.column :=
    h.ordered.imp .inl
  exact happart.forall ht hu hne

/-- A brace of a document is a token of the line that it names. -/
theorem Document.mem_tokens_of_mem_braces {text : List Char} {uri : Option String} {l : Line}
    (hl : l ∈ (ofText text uri).lines) {t : Token} (ht : t ∈ braces (ofText text uri).codeTokens)
    (hline : t.line = l.index) : t ∈ l.codeTokens := by
  obtain ⟨l', hl', ht⟩ := List.mem_flatMap.1 (List.mem_filter.1 ht).1
  have hindex : l'.index = l.index :=
    ((fits_of_mem hl').line_eq t (Line.mem_tokens ht)).symm.trans hline
  rwa [← (isNumbered_ofText text uri).eq_of_index hl' hl hindex]

/-- The braces of a document are its characters `{` and `}` outside of comments and literals. -/
theorem Document.exists_brace_iff {text : List Char} {uri : Option String} {l : Line}
    (hl : l ∈ (ofText text uri).lines) {c : Char} (hc : c = '{' ∨ c = '}') (k : Nat) :
    (∃ t ∈ braces (ofText text uri).codeTokens,
      t.line = l.index ∧ t.column = k ∧ t.text = String.ofList [c]) ↔
      l.text[k]? = some c ∧
        ∀ t ∈ l.tokens, t.kind = .string ∨ t.kind = .comment → ¬t.StandsOver k := by
  constructor
  · rintro ⟨t, ht, hline, rfl, htext⟩
    have hmem := Line.mem_tokens (mem_tokens_of_mem_braces hl ht hline)
    have hstop : t.stop = t.column + 1 := by
      rw [Token.stop, htext, String.length_ofList, List.length_singleton]
    refine ⟨?_, ?_⟩
    · rcases lexed_or_blank hl with ⟨-, hlossless⟩ | ⟨-, hnil⟩
      · have hslice := (hlossless.slice t hmem).2
        rw [htext, String.toList_ofList, Span.slice, hstop, Nat.add_sub_cancel_left] at hslice
        have hhead := congrArg List.head? hslice
        rw [List.head?_take, if_neg Nat.one_ne_zero, List.head?_drop] at hhead
        exact hhead.symm
      · simp [hnil] at hmem
    · intro u hu hkind hover
      have hne : t ≠ u := by
        rintro rfl
        have hbrace := (List.mem_filter.1 ht).2
        rcases hkind with hkind | hkind <;> simp [Token.isBrace, Token.isSymbol, hkind] at hbrace
      obtain ⟨hle, hlt⟩ := hover
      rcases (fits_of_mem hl).apart hmem hu hne with h | h <;> omega
  · rintro ⟨hat, hnone⟩
    obtain ⟨i, hi⟩ := List.mem_iff_getElem?.1 hl
    obtain ⟨flag, -, heq⟩ := exists_lexLine hi
    have hc' : isSkipped c = false ∧ isBlank c = false := by
      rcases hc with rfl | rfl <;> decide +kernel
    rcases lexed_or_blank hl with ⟨-, hlossless⟩ | ⟨hblank, -⟩
    · obtain ⟨t, ht, hover⟩ : ∃ t ∈ l.tokens, t.StandsOver k := by
        by_contra hnot
        simp only [not_exists, not_and] at hnot
        rw [hlossless.separated k c hat hnot] at hc'
        simp at hc'
      have hnot : t.kind ≠ .string ∧ t.kind ≠ .comment :=
        not_or.1 fun hkind => hnone t ht hkind hover
      have hslice := (hlossless.slice t ht).2
      have hmem : c ∈ t.text.toList := by
        obtain ⟨hle, hlt⟩ := hover
        have hinside : k - t.column < t.stop - t.column := by omega
        refine List.mem_of_getElem? (i := k - t.column) ?_
        rw [hslice, Span.slice, List.getElem?_take_of_lt hinside, List.getElem?_drop,
          Nat.add_sub_cancel' hle, hat]
      rw [heq] at ht
      obtain ⟨hkind, htext⟩ := text_of_brace_mem ht hc hmem hnot.1 hnot.2
      rw [← heq] at ht
      have hbrace : t.isBrace = true := by
        rcases hc with rfl | rfl <;> simp [Token.isBrace, Token.isSymbol, hkind, htext]
      have hcolumn : t.column = k := by
        obtain ⟨hle, hlt⟩ := hover
        rw [Token.stop, Token.length_text_of_isBrace hbrace] at hlt
        omega
      refine ⟨t, List.mem_filter.2 ⟨?_, hbrace⟩, (fits_of_mem hl).line_eq t ht, hcolumn, htext⟩
      exact List.mem_flatMap.2 ⟨l, hl, List.mem_filter.2 ⟨ht, by simp [hkind]⟩⟩
    · rw [List.all_eq_true] at hblank
      rw [hblank c (List.mem_of_getElem? hat)] at hc'
      simp at hc'

end Polyloft
