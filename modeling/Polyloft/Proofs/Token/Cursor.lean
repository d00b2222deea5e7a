import Polyloft.Proofs.Inference.Access
import Polyloft.Proofs.Token.Masked

/-!
# Polyloft.Proofs.Token.Cursor

Reading a text with a cursor, and lexing it. Declarations are read from the text of a line, scopes
from its tokens. Both see the same words: on a text of printable ASCII characters, what a cursor
reads is told by the tokens that the lexer finds behind it. A name is read exactly if the next token
is a name, and a keyword exactly if it is that keyword and something blank follows.

## Proof shape

`Cursor.Sees` ties a cursor on a text to the tokens behind it, and `Cursor.Faces` adds that nothing
blank stands before the first of them. Skipping blanks turns the one into the other; each reading
step is an equation about a cursor that faces a token.
-/

namespace Polyloft

open Polyloft.Text

/-! ### Characters -/

/-- The printable characters of ASCII, and the tab. -/
def Text.isAsciiText (c : Char) : Bool :=
  c == '\t' || 0x20 ≤ c.toNat && c.toNat ≤ 0x7e

theorem Text.toNat_lt_of_isAsciiText {c : Char} (h : isAsciiText c = true) : c.toNat < 128 := by
  simp only [isAsciiText, Bool.or_eq_true, beq_iff_eq, Bool.and_eq_true, decide_eq_true_eq] at h
  rcases h with rfl | h
  · decide
  · omega

/-- In such a text the lexer skips what is blank, and nothing blank is part of a word. -/
theorem Text.isSkipped_of_isAsciiText {c : Char} (h : isAsciiText c = true) :
    isSkipped c = isBlank c ∧ (isBlank c = true → isWord c = false) := by
  have hall : ∀ n : Fin 128, isAsciiText (Char.ofNat n) = true →
      isSkipped (Char.ofNat n) = isBlank (Char.ofNat n) ∧
        (isBlank (Char.ofNat n) = true → isWord (Char.ofNat n) = false) := by
    decide +kernel
  simpa using hall ⟨c.toNat, toNat_lt_of_isAsciiText h⟩ (by simpa using h)

/-! ### Lexemes -/

namespace Lexeme

theorem kind_number (cs : List Char) : (number cs).kind = .int ∨ (number cs).kind = .float := by
  unfold number
  dsimp only
  repeat' split
  all_goals simp

theorem kind_sign (c : Char) (cs : List Char) :
    (sign c cs).kind ∈ [.operator, .punct, .unknown] := by
  unfold sign
  repeat' split
  all_goals simp

/-- A lexeme is a name, an annotation, or neither. -/
theorem at_cases (c : Char) (cs : List Char) :
    isNameStart c = true ∧ Lexeme.at c cs = name c cs ∨
      c = '@' ∧ cs.head?.any isNameStart = true ∧
        Lexeme.at c cs = ⟨.marker, 1 + (cs.tail.takeWhile isWord).length, true, false⟩ ∨
      isNameStart c = false ∧
        (Lexeme.at c cs).kind ∉ [TokenKind.identifier, .keyword, .marker] := by
  by_cases hname : isNameStart c = true
  · obtain ⟨-, hdecimal, hslash, hat, hquote, hsingle, -⟩ := only_starts_name hname
    refine .inl ⟨hname, ?_⟩
    rw [at_eq, if_neg (by simp [Region.startsComment, hslash]), if_neg hat,
      if_neg (by simp [hquote, hsingle]), if_neg (by simp [hdecimal]), if_pos hname]
  · refine .inr ?_
    by_cases hmarker : c = '@' ∧ cs.head?.any isNameStart = true
    · obtain ⟨rfl, hhead⟩ := hmarker
      refine .inl ⟨rfl, hhead, ?_⟩
      rw [at_eq, if_neg (by simp [Region.startsComment]), if_pos rfl, if_pos hhead]
    · refine .inr ⟨by simpa using hname, ?_⟩
      rw [at_eq]
      split
      · split
        · simp
        · split <;> simp
      · split
        · rename_i hc
          rw [if_neg fun hhead => hmarker ⟨hc, hhead⟩]
          simp
        · split
          · split <;> simp
          · split
            · rcases kind_number cs with h | h <;> simp [h]
            · have hsign := kind_sign c cs
              intro hkind
              revert hsign hkind
              generalize (sign c cs).kind = kind
              cases kind <;> simp

theorem colon_of_mem_sign {c : Char} {cs : List Char} (h : ':' ∈ c :: cs.take (sign c cs).tail) :
    (sign c cs).kind = .operator ∧ c :: cs.take (sign c cs).tail = [':'] := by
  unfold sign at h ⊢
  split at h
  · rename_i op hop
    have hmem := List.mem_of_find?_eq_some hop
    have hall : (operators.all fun op => !op.toList.contains ':' || op.toList == [':']) = true := by
      decide +kernel
    have hcolon := List.all_eq_true.1 hall op hmem
    dsimp only at h ⊢
    rw [take_of_operatorAt? hop] at h ⊢
    simpa [h] using hcolon
  · rename_i hnone
    have hc : c = ':' := by
      split at h <;> exact (List.mem_singleton.1 (by simpa using h)).symm
    subst hc
    simp [operatorAt?, operators, List.isPrefixOf] at hnone

/-- A colon outside of comments and literals is an operator of its own. -/
theorem eq_colon_of_mem {c : Char} {cs : List Char} (hcomment : (Lexeme.at c cs).kind ≠ .comment)
    (hstring : (Lexeme.at c cs).kind ≠ .string) (h : ':' ∈ c :: cs.take (Lexeme.at c cs).tail) :
    (Lexeme.at c cs).kind = .operator ∧ c :: cs.take (Lexeme.at c cs).tail = [':'] := by
  have hrun (cs : List Char) : ':' ∉ cs.takeWhile isWord := fun hmem =>
    absurd (List.mem_takeWhile_imp hmem) (by decide)
  obtain ⟨hstart, hquote, -⟩ := reads_plain hcomment hstring
  have hat := at_eq c cs
  rw [hstart, if_neg Bool.false_ne_true, if_neg hquote] at hat
  rw [hat] at h ⊢
  by_cases hc : c = '@'
  · rw [if_pos hc] at h ⊢
    split at h
    · rename_i hname
      obtain ⟨a, ha, hstarts⟩ := (Option.any_eq_true ..).1 hname
      obtain ⟨ds, rfl⟩ := List.head?_eq_some_iff.1 ha
      rw [List.tail_cons, Nat.add_comm, List.take_succ_cons, take_length_takeWhile] at h
      simp only [List.mem_cons, hrun ds, or_false, hc] at h
      rcases h with h | rfl
      · exact absurd h (by decide)
      · exact absurd hstarts (by decide)
    · simp [hc] at h
  · rw [if_neg hc] at h ⊢
    by_cases hdecimal : isDecimal c = true
    · rw [if_pos hdecimal] at h
      rcases isDecimal_or_eq_of_isNumeral (isNumeral_number cs hdecimal) h with h | h
      · exact absurd h (by decide +kernel)
      · exact absurd h (by decide)
    · rw [if_neg hdecimal] at h ⊢
      by_cases hname : isNameStart c = true
      · rw [if_pos hname, name, take_length_takeWhile] at h
        rcases List.mem_cons.1 h with rfl | h
        · exact absurd hname (by decide)
        · exact absurd h (hrun cs)
      · rw [if_neg hname] at h ⊢
        exact colon_of_mem_sign h

end Lexeme

/-- A name or a keyword. -/
def Token.isName (t : Token) : Bool :=
  t.kind == .identifier || t.kind == .keyword

/-- Names are keywords or identifiers by their text. -/
theorem kind_eq_wordKind {line column : Nat} {cs : List Char} {t : Token}
    (ht : t ∈ (lexFrom line column cs).1) (hname : t.isName = true) : t.kind = wordKind t.text := by
  obtain ⟨c, ds, k, -, -, rfl⟩ := exists_lexeme_of_mem ht
  rcases Lexeme.at_cases c ds with ⟨-, hat⟩ | ⟨-, -, hat⟩ | ⟨-, hkind⟩
  · simp only [hat, Lexeme.name, take_length_takeWhile]
    rfl
  · simp [Token.isName, hat] at hname
  · simp_all [Token.isName]

theorem lexFrom_append_of_isSkipped {w : List Char} (hw : ∀ c ∈ w, isSkipped c = true)
    (line column : Nat) (cs : List Char) :
    lexFrom line column (w ++ cs) = lexFrom line (column + w.length) cs := by
  induction w generalizing column with
  | nil => rfl
  | cons c w ih =>
      rw [List.forall_mem_cons] at hw
      rw [List.cons_append, lexFrom, if_pos hw.1, ih hw.2, List.length_cons, Nat.add_assoc,
        Nat.add_comm 1]

/-! ### Cursors -/

namespace Text.Cursor

/-- The cursor stands on the text, and the lexer finds these tokens behind it. -/
structure Sees (text : List Char) (line : Nat) (tokens : List Token) (c : Cursor) : Prop where
  within : c.Within text
  lexed : (lexFrom line c.pos c.rest).1 = tokens

/-- Moreover, the first of the tokens stands right behind the cursor. -/
structure Faces (text : List Char) (line : Nat) (tokens : List Token) (c : Cursor) : Prop
    extends Sees text line tokens c where
  head : c.rest.head?.any isBlank = false

section

variable {text : List Char} {line : Nat} {t u : Token} {tokens : List Token} {c : Cursor}
  (htext : ∀ d ∈ text, isAsciiText d = true)

theorem Within.mem (h : c.Within text) {d : Char} (hd : d ∈ c.rest) : d ∈ text := by
  rw [← h] at hd
  exact List.mem_of_mem_drop hd

theorem Within.head? (h : c.Within text) : c.rest.head? = text[c.pos]? := by
  rw [← h, List.head?_drop]

include htext in
theorem Within.blanks?_eq_none (h : c.Within text) (hword : c.rest.head?.any isWord = true) :
    c.blanks? = none := by
  obtain ⟨d, hd, hword⟩ := (Option.any_eq_true ..).1 hword
  refine if_neg fun hblank => ?_
  rw [hd, Option.any_some] at hblank
  have hmem : d ∈ text := h.mem (List.mem_of_head? hd)
  rw [(isSkipped_of_isAsciiText (htext d hmem)).2 hblank] at hword
  simp at hword

theorem rest_skipWhile (p : Char → Bool) (c : Cursor) :
    (c.skipWhile p).rest = c.rest.dropWhile p := by
  have hsplit := List.takeWhile_append_dropWhile (p := p) (l := c.rest)
  rw [skipWhile, Cursor.advance]
  dsimp only
  nth_rewrite 2 [← hsplit]
  exact List.drop_left

include htext in
/-- Blanks are no tokens. -/
theorem Sees.skipBlanks (h : Sees text line tokens c) : Faces text line tokens c.skipBlanks where
  within := h.within.skipBlanks
  lexed := by
    have hw : ∀ d ∈ c.rest.takeWhile isBlank, isSkipped d = true := by
      intro d hd
      have hmem := h.within.mem ((List.takeWhile_sublist isBlank).mem hd)
      rw [(isSkipped_of_isAsciiText (htext d hmem)).1]
      exact List.mem_takeWhile_imp hd
    have hsplit := lexFrom_append_of_isSkipped hw line c.pos (c.rest.dropWhile isBlank)
    rw [List.takeWhile_append_dropWhile] at hsplit
    rw [← h.lexed, hsplit, Cursor.skipBlanks, rest_skipWhile]
    rfl
  head := by
    rw [Cursor.skipBlanks, rest_skipWhile]
    cases hrest : c.rest.dropWhile isBlank with
    | nil => rfl
    | cons d ds =>
        have hhead := List.head?_dropWhile_not isBlank c.rest
        rw [hrest] at hhead
        simpa using hhead

include htext in
theorem Sees.blanks? {c' : Cursor} (h : Sees text line tokens c) (hc : c.blanks? = some c') :
    Faces text line tokens c' := by
  unfold Cursor.blanks? at hc
  split at hc
  · obtain rfl := Option.some.inj hc
    exact h.skipBlanks htext
  · simp at hc

section

variable (h : Faces text line (t :: tokens) c)
include htext

theorem Faces.not_isSkipped {d : Char} {ds : List Char} (h : Faces text line tokens c)
    (hrest : c.rest = d :: ds) : isSkipped d = false := by
  have hmem : d ∈ text := h.within.mem (hrest ▸ List.mem_cons_self ..)
  have hhead := h.head
  rw [hrest] at hhead
  rw [(isSkipped_of_isAsciiText (htext d hmem)).1]
  simpa using hhead

theorem Faces.rest_of_nil (h : Faces text line [] c) : c.rest = [] := by
  cases hrest : c.rest with
  | nil => rfl
  | cons d ds =>
      have hlexed := h.lexed
      rw [hrest, lexFrom, if_neg (by simp [h.not_isSkipped htext hrest])] at hlexed
      simp at hlexed

include h

/-- The token that a cursor faces. -/
theorem Faces.exists_lexeme :
    ∃ d ds, c.rest = d :: ds ∧
      t = ⟨(Lexeme.at d ds).kind, String.ofList (d :: ds.take (Lexeme.at d ds).tail), line, c.pos,
        (Lexeme.at d ds).terminated⟩ ∧
      t.text.length = 1 + (Lexeme.at d ds).tail ∧
      Sees text line tokens (c.advance t.text.length) := by
  have hlexed := h.lexed
  cases hrest : c.rest with
  | nil =>
      rw [hrest, lexFrom] at hlexed
      simp at hlexed
  | cons d ds =>
      rw [hrest, lexFrom, if_neg (by simp [h.not_isSkipped htext hrest])] at hlexed
      obtain ⟨ht, htokens⟩ := List.cons.inj hlexed
      have hlength : t.text.length = 1 + (Lexeme.at d ds).tail := by
        rw [← ht]
        simp only [String.length_ofList, List.length_cons,
          List.length_take_of_le (Lexeme.tail_at_le d ds)]
        omega
      refine ⟨d, ds, rfl, ht.symm, hlength, h.within.advance _, ?_⟩
      rw [Cursor.advance, hrest, hlength, Nat.add_comm 1, List.drop_succ_cons, ← htokens,
        Nat.add_assoc, Nat.add_comm 1]

theorem Faces.advance : Sees text line tokens (c.advance t.text.length) := by
  obtain ⟨d, ds, -, -, -, hsees⟩ := h.exists_lexeme htext
  exact hsees

theorem Faces.column_eq : t.column = c.pos := by
  obtain ⟨d, ds, -, rfl, -⟩ := h.exists_lexeme htext
  rfl

theorem Faces.head?_text : t.text.toList.head? = c.rest.head? := by
  obtain ⟨d, ds, hrest, rfl, -⟩ := h.exists_lexeme htext
  simp [hrest]

theorem Faces.isName_eq : t.isName = t.text.toList.head?.any isNameStart := by
  rw [h.head?_text htext]
  obtain ⟨d, ds, hrest, rfl, -⟩ := h.exists_lexeme htext
  rw [hrest, List.head?_cons, Option.any_some, Token.isName]
  dsimp only
  rcases Lexeme.at_cases d ds with ⟨hname, hat⟩ | ⟨rfl, -, hat⟩ | ⟨hname, hkind⟩
  · rw [hname, hat, Lexeme.name]
    dsimp only
    split <;> rfl
  · rw [hat]
    rfl
  · rw [hname]
    simp_all

/-- A name ends where the run of word characters ends. -/
theorem Faces.lexeme_of_isName (ht : t.isName = true) :
    ∃ d ds, c.rest = d :: ds ∧ isNameStart d = true ∧
      t = ⟨wordKind t.text, String.ofList (d :: ds.takeWhile isWord), line, c.pos, true⟩ := by
  rw [h.isName_eq htext, h.head?_text htext] at ht
  obtain ⟨d, ds, hrest, rfl, -⟩ := h.exists_lexeme htext
  rw [hrest, List.head?_cons, Option.any_some] at ht
  refine ⟨d, ds, hrest, ht, ?_⟩
  rcases Lexeme.at_cases d ds with ⟨-, hat⟩ | ⟨rfl, -⟩ | ⟨hname, -⟩
  · simp only [hat, Lexeme.name, take_length_takeWhile]
    rfl
  · exact absurd ht (by decide)
  · rw [hname] at ht
    simp at ht

/-- An annotation is an at sign and a name. -/
theorem Faces.lexeme_of_marker (ht : t.kind = .marker) :
    ∃ a es, c.rest = '@' :: a :: es ∧ isNameStart a = true ∧
      t.text.length = 1 + (1 + (es.takeWhile isWord).length) := by
  obtain ⟨d, ds, hrest, htoken, hlength, -⟩ := h.exists_lexeme htext
  rw [htoken] at ht
  rcases Lexeme.at_cases d ds with ⟨-, hat⟩ | ⟨rfl, hname, hat⟩ | ⟨-, hkind⟩
  · rw [hat, Lexeme.name] at ht
    dsimp only at ht
    split at ht <;> simp at ht
  · obtain ⟨a, ha, hname⟩ := (Option.any_eq_true ..).1 hname
    obtain ⟨es, rfl⟩ := List.head?_eq_some_iff.1 ha
    exact ⟨a, es, hrest, hname, by rw [hlength, hat, List.tail_cons]⟩
  · simp_all

/-- A run that starts like a name is read exactly if it is the next token. -/
theorem Faces.run?_eq {first : Char → Bool} (hfirst : ∀ d, first d = true → isNameStart d = true) :
    c.run? first isWord =
      if t.text.toList.head?.any first then some (⟨t.column, t.stop⟩, c.advance t.text.length)
      else none := by
  by_cases hhead : t.text.toList.head?.any first = true
  · have ht : t.isName = true := by
      obtain ⟨d, hd, hfd⟩ := (Option.any_eq_true ..).1 hhead
      rw [h.isName_eq htext, hd]
      exact hfirst d hfd
    obtain ⟨d, ds, hrest, -, htoken⟩ := h.lexeme_of_isName htext ht
    have htext' : t.text = String.ofList (d :: ds.takeWhile isWord) := by rw [htoken]
    have hlength : t.text.length = 1 + (ds.takeWhile isWord).length := by
      rw [htext', String.length_ofList, List.length_cons, Nat.add_comm]
    have hd : first d = true := by simpa [htext'] using hhead
    rw [if_pos hhead, Cursor.run?, hrest]
    dsimp only
    rw [if_pos hd, ← hlength, Token.stop, h.column_eq htext]
  · rw [if_neg hhead]
    rw [h.head?_text htext] at hhead
    obtain ⟨d, ds, hrest, -⟩ := h.exists_lexeme htext
    rw [hrest] at hhead
    rw [Cursor.run?, hrest]
    exact if_neg (by simpa using hhead)

theorem Faces.name?_eq :
    c.name? = if t.isName then some (⟨t.column, t.stop⟩, c.advance t.text.length) else none := by
  rw [h.isName_eq htext]
  exact h.run?_eq htext fun _ hd => hd

/-- Behind a name or an annotation there is no word character. -/
theorem Faces.head?_advance (ht : t.isName = true ∨ t.kind = .marker) :
    (c.advance t.text.length).rest.head?.any isWord = false := by
  have hdrop (cs : List Char) :
      (cs.drop (cs.takeWhile isWord).length).head?.any isWord = false := by
    have hrest := rest_skipWhile isWord ⟨0, cs⟩
    have hhead := List.head?_dropWhile_not isWord cs
    rw [skipWhile, Cursor.advance] at hrest
    dsimp only at hrest
    rw [hrest]
    cases hcs : cs.dropWhile isWord with
    | nil => rfl
    | cons d ds => simpa [hcs] using hhead
  rcases ht with ht | ht
  · obtain ⟨d, ds, hrest, -, htoken⟩ := h.lexeme_of_isName htext ht
    rw [htoken, String.length_ofList, List.length_cons, Cursor.advance, hrest]
    exact hdrop ds
  · obtain ⟨a, es, hrest, -, hlength⟩ := h.lexeme_of_marker htext ht
    rw [hlength, Cursor.advance, hrest, Nat.add_comm 1, Nat.add_comm 1]
    exact hdrop es

omit h in
/-- Between a name or an annotation and a name there is something blank. -/
theorem Faces.blank_between (h : Faces text line (t :: u :: tokens) c)
    (ht : t.isName = true ∨ t.kind = .marker) (hu : u.isName = true) :
    (c.advance t.text.length).rest.head?.any isBlank = true := by
  by_contra hblank
  have hfaces : Faces text line (u :: tokens) (c.advance t.text.length) :=
    ⟨h.advance htext, by simpa using hblank⟩
  have hword := h.head?_advance htext ht
  rw [hfaces.isName_eq htext, hfaces.head?_text htext] at hu
  obtain ⟨d, hd, hname⟩ := (Option.any_eq_true ..).1 hu
  rw [hd, Option.any_some, isWord_of_isNameStart hname] at hword
  simp at hword

theorem Faces.text_prefix : t.text.toList <+: c.rest := by
  obtain ⟨d, ds, hrest, htoken, -⟩ := h.exists_lexeme htext
  rw [htoken, String.toList_ofList, hrest, List.cons_prefix_cons]
  exact ⟨rfl, List.take_prefix _ _⟩

/-- A keyword is read exactly if it is the next token and something blank follows. -/
theorem Faces.word?_eq {w : String} (hw : w ∈ keywords) :
    c.word? w = if t.isKeyword w then (c.advance t.text.length).blanks? else none := by
  have hname : isName w.toList = true := by
    have hall : (keywords.all fun w => isName w.toList) = true := by decide +kernel
    exact List.all_eq_true.1 hall w hw
  have hkind : wordKind w = .keyword := if_pos (by simpa using hw)
  by_cases hkeyword : t.isKeyword w = true
  · have hprefix := h.text_prefix htext
    rw [if_pos hkeyword]
    rw [Token.isKeyword, Bool.and_eq_true, beq_iff_eq, beq_iff_eq] at hkeyword
    rw [hkeyword.2] at hprefix ⊢
    rw [Cursor.word?, Cursor.literal?, if_pos (List.isPrefixOf_iff_prefix.2 hprefix),
      Option.bind_some]
  · rw [if_neg hkeyword]
    by_cases hprefix : w.toList.isPrefixOf c.rest = true
    · obtain ⟨more, hmore⟩ := List.isPrefixOf_iff_prefix.1 hprefix
      have hrest : (c.advance w.length).rest = more := by
        rw [Cursor.advance, ← hmore, ← String.length_toList]
        exact List.drop_left
      -- The word goes on, or else it would be the next token.
      have hword : more.head?.any isWord = true := by
        by_contra hword
        have hlexed := h.lexed
        rw [← hmore, lexFrom_name hname (by simpa using hword), hkind] at hlexed
        obtain ⟨rfl, -⟩ := List.cons.inj hlexed
        exact hkeyword (by simp [Token.isKeyword])
      rw [Cursor.word?, Cursor.literal?, if_pos hprefix, Option.bind_some]
      exact (h.within.advance w.length).blanks?_eq_none htext (by rw [hrest, hword])
    · rw [Cursor.word?, Cursor.literal?, if_neg hprefix, Option.bind_none]

/-- An opening parenthesis is read exactly if it is the next token. -/
theorem Faces.isSome_literal?_paren : (c.literal? "(").isSome = t.isSymbol "(" := by
  obtain ⟨d, ds, hrest, htoken, -⟩ := h.exists_lexeme htext
  by_cases hd : d = '('
  · subst hd
    have hat : Lexeme.at '(' ds = ⟨.punct, 0, true, false⟩ := by
      rw [Lexeme.at_eq, if_neg (by simp [Region.startsComment]), if_neg (by decide),
        if_neg (by decide), if_neg (by decide +kernel), if_neg (by decide), Lexeme.sign]
      simp [operatorAt?, operators, List.isPrefixOf, isPunctuation]
    rw [htoken, hat, Cursor.literal?, hrest]
    rfl
  · have hsymbol : ¬t.isSymbol "(" = true := by
      intro hsymbol
      rw [Token.isSymbol, Bool.and_eq_true, beq_iff_eq] at hsymbol
      have hhead := h.head?_text htext
      rw [hsymbol.2, hrest, List.head?_cons] at hhead
      exact hd (Option.some.inj hhead).symm
    rw [Bool.eq_false_iff.2 hsymbol, Cursor.literal?, hrest, if_neg, Option.isSome_none]
    simpa [List.isPrefixOf] using fun h => hd h.symm

end

end

end Text.Cursor

/-! ### The end of a text -/

theorem getLast?_stripEnd (cs : List Char) :
    (stripEnd cs).getLast? = (cs.filter fun c => !isBlank c).getLast? := by
  rw [stripEnd]
  induction cs with
  | nil => rfl
  | cons c cs ih =>
      have hnil : dropEndWhile isBlank cs = [] ↔ (cs.filter fun c => !isBlank c) = [] := by
        rw [← List.getLast?_eq_none_iff, ih, List.getLast?_eq_none_iff]
      rw [dropEndWhile_cons]
      by_cases hc : isBlank c = true
      · rw [List.filter_cons_of_neg (by simp [hc])]
        by_cases hend : dropEndWhile isBlank cs = []
        · rw [if_pos ⟨hend, hc⟩, hnil.1 hend]
        · rw [if_neg fun h => hend h.1, ← ih, List.getLast?_cons_of_ne_nil hend]
      · rw [if_neg fun h => hc h.2, List.filter_cons_of_pos (by simp [hc]), List.getLast?_cons,
          List.getLast?_cons, ih]

/-- What is not blank stands in tokens. -/
theorem filter_eq_flatMap_lexFrom (line column : Nat) (cs : List Char) :
    (cs.filter fun c => !isBlank c) =
      (lexFrom line column cs).1.flatMap fun t => t.text.toList.filter fun c => !isBlank c := by
  fun_induction lexFrom line column cs with
  | case1 => rfl
  | case2 column c cs hskip ih =>
      have hblank : isBlank c = true := by
        simp only [isSkipped, Bool.or_eq_true, beq_iff_eq] at hskip
        rcases hskip with (((rfl | rfl) | rfl) | rfl) | rfl <;> decide
      rw [List.filter_cons_of_neg (by simp [hblank]), ih]
  | case3 column c cs hskip lexeme token rest ih =>
      have hsplit : c :: cs = (c :: cs.take lexeme.tail) ++ cs.drop lexeme.tail := by simp
      rw [hsplit, List.filter_append, ih, List.flatMap_cons, String.toList_ofList]

/-- A text ends with a colon exactly if its last token is one, unless that is a comment or a literal
with a colon in it. -/
theorem getLast?_stripEnd_eq_colon_iff {line : Nat} {cs : List Char} {before : List Token}
    {t : Token} (hcs : ∀ c ∈ cs, isAsciiText c = true)
    (htokens : (lexFrom line 0 cs).1 = before ++ [t])
    (hcomment : t.kind ≠ .comment) (hstring : t.kind = .string → ':' ∉ t.text.toList) :
    (stripEnd cs).getLast? = some ':' ↔ t.isSymbol ":" = true := by
  obtain ⟨c, ds, column, hc, hskip, ht⟩ :=
    exists_lexeme_of_mem (htokens ▸ List.mem_append_right before (List.mem_singleton_self t))
  have hblank : isBlank c = false := by rw [← (isSkipped_of_isAsciiText (hcs c hc)).1, hskip]
  have hne : (t.text.toList.filter fun c => !isBlank c) ≠ [] := by
    rw [ht, String.toList_ofList, List.filter_cons_of_pos (by simp [hblank])]
    simp
  rw [getLast?_stripEnd, filter_eq_flatMap_lexFrom line 0, htokens, List.flatMap_append,
    List.flatMap_singleton, List.getLast?_append_of_ne_nil _ hne]
  constructor
  · intro hlast
    have hmem := (List.mem_filter.1 (List.mem_of_getLast? hlast)).1
    have hkind : t.kind ≠ .string := fun hkind => hstring hkind hmem
    rw [ht] at hcomment hkind hmem
    rw [String.toList_ofList] at hmem
    obtain ⟨hoperator, htext⟩ := Lexeme.eq_colon_of_mem hcomment hkind hmem
    rw [ht, htext, hoperator]
    rfl
  · intro hsymbol
    rw [Token.isSymbol, Bool.and_eq_true, beq_iff_eq] at hsymbol
    rw [hsymbol.2]
    rfl

end Polyloft
