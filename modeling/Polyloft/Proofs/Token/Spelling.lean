import Polyloft.Proofs.Inference.Access
import Polyloft.Proofs.Token.Bracketed
import Polyloft.Proofs.Token.Masked
import Polyloft.Text.Split

/-!
# Polyloft.Proofs.Token.Spelling

Texts that are put together from tokens. The spelling of a token is all of it but its place, and the
spellings of a text do not depend on where the text stands (`map_spelling_lexFrom`). A spelling
stands alone if the lexer reads it back, whole and by itself, wherever a space or the end of the
line follows (`Spelling.StandsAlone`), as names, numbers, closed literals, operators and punctuation
do. Spellings that stand alone can be written with spaces between them (`spellings_joinWith`).
-/

namespace Polyloft

open Polyloft.Text

/-! ### Spellings -/

/-- A token without its place. -/
structure Spelling where
  kind : TokenKind
  text : String
deriving DecidableEq, Repr

/-- The category and the text of a token. -/
def Token.spelling (t : Token) : Spelling :=
  ⟨t.kind, t.text⟩

namespace Spelling

/-- An operator. -/
def operator (sign : String) : Spelling :=
  ⟨.operator, sign⟩

/-- A bracket or a comma. -/
def punct (sign : String) : Spelling :=
  ⟨.punct, sign⟩

end Spelling

/-- What the tokens of a text outside any comment are. -/
def spellings (cs : List Char) : List Spelling :=
  (lexFrom 0 0 cs).1.map Token.spelling

theorem map_spelling_lexFrom (line column : Nat) (cs : List Char) :
    (lexFrom line column cs).1.map Token.spelling = spellings cs := by
  have hplace (line' column' : Nat) : (lexFrom line column cs).1.map Token.spelling =
      (lexFrom line' column' cs).1.map Token.spelling := by
    fun_induction lexFrom line column cs generalizing column' with
    | case1 => simp [lexFrom]
    | case2 column c cs hskip ih =>
        rw [ih (column' + 1)]
        conv_rhs => rw [lexFrom, if_pos hskip]
    | case3 column c cs hskip lexeme token rest ih =>
        rw [lexFrom, if_neg hskip]
        dsimp only
        rw [List.map_cons, List.map_cons, ih (column' + 1 + lexeme.tail)]
        rfl
  exact hplace 0 0

@[simp] theorem spellings_nil : spellings [] = [] := by
  rw [spellings, lexFrom]
  rfl

theorem spellings_cons_of_isSkipped {c : Char} (h : isSkipped c = true) (cs : List Char) :
    spellings (c :: cs) = spellings cs := by
  rw [spellings, lexFrom, if_pos h, map_spelling_lexFrom]

@[simp] theorem spellings_space (cs : List Char) : spellings (' ' :: cs) = spellings cs :=
  spellings_cons_of_isSkipped rfl cs

/-- A lexeme is cut off the text. -/
theorem spellings_of_at {c : Char} (piece : List Char) {after : List Char} {kind : TokenKind}
    (hskip : isSkipped c = false)
    (hat : Lexeme.at c (piece ++ after) = ⟨kind, piece.length, true, false⟩) :
    spellings (c :: (piece ++ after)) = ⟨kind, String.ofList (c :: piece)⟩ :: spellings after := by
  rw [spellings, lexFrom_of_at (by simp [hskip]) hat rfl, List.map_cons, map_spelling_lexFrom]
  rfl

theorem spellings_name {name : String} (hname : isName name.toList = true) {rest : List Char}
    (hrest : rest.head?.any isWord = false) :
    spellings (name.toList ++ rest) = ⟨wordKind name, name⟩ :: spellings rest := by
  rw [spellings, lexFrom_name hname hrest, List.map_cons, map_spelling_lexFrom]
  rfl

/-! ### Signs -/

/-- A character that goes on with no operator and no comment that starts with `sign`. -/
def isApart (sign : List Char) (c : Char) : Bool :=
  c != '/' && c != '*' && operators.all fun op => !(sign ++ [c]).isPrefixOf op.toList

/-- The longest operator that fits is found. -/
theorem operatorAt?_append {sign : String} (hsign : sign ∈ operators) {rest : List Char}
    (hrest : ∀ c ∈ rest.head?, isApart sign.toList c = true) :
    operatorAt? (sign.toList ++ rest) = some sign := by
  have hself : ∀ s ∈ operators, operators.find? (·.toList.isPrefixOf s.toList) = some s := by
    decide +kernel
  have hprefix : ∀ op ∈ operators,
      op.toList.isPrefixOf (sign.toList ++ rest) = op.toList.isPrefixOf sign.toList := by
    intro op hop
    rw [Bool.eq_iff_iff, List.isPrefixOf_iff_prefix, List.isPrefixOf_iff_prefix]
    refine ⟨fun h => ?_, fun h => h.trans (List.prefix_append _ _)⟩
    rcases Nat.le_total op.toList.length sign.toList.length with hle | hle
    · exact List.prefix_of_prefix_length_le h (List.prefix_append _ _) hle
    · -- A longer operator would go on with what stands behind the sign.
      obtain ⟨more, hmore⟩ :=
        List.prefix_of_prefix_length_le (List.prefix_append sign.toList rest) h hle
      cases more with
      | nil => exact ⟨[], by rw [List.append_nil, ← hmore, List.append_nil]⟩
      | cons c cs =>
          obtain ⟨after, hafter⟩ := h
          rw [← hmore, List.append_assoc, List.append_cancel_left_eq] at hafter
          have hapart := hrest c (by rw [← hafter]; rfl)
          simp only [isApart, Bool.and_eq_true, List.all_eq_true] at hapart
          have hnot := hapart.2 op hop
          rw [← hmore, Bool.not_eq_true', Bool.eq_false_iff] at hnot
          exact absurd (List.isPrefixOf_iff_prefix.2 ⟨cs, by simp⟩) hnot
  rw [operatorAt?, ← hself sign hsign, ← List.head?_filter, ← List.head?_filter]
  exact congrArg List.head? (List.filter_congr hprefix)

/-- What starts an operator starts nothing else. -/
theorem only_starts_operator {c : Char} {cs : List Char}
    (h : String.ofList (c :: cs) ∈ operators) :
    isSkipped c = false ∧ c ≠ '@' ∧ ¬(c = '"' ∨ c = '\'') ∧ isDecimal c = false ∧
      isNameStart c = false ∧ ∀ d ∈ cs.head?, d ≠ '/' ∧ d ≠ '*' := by
  have hall : (operators.all fun op =>
      (op.toList.head?.all fun c => !isSkipped c && c != '@' && !(c == '"' || c == '\'') &&
        !isDecimal c && !isNameStart c) &&
        op.toList.tail.head?.all fun d => d != '/' && d != '*') = true := by
    decide +kernel
  have hstart := List.all_eq_true.1 hall _ h
  simpa [Option.all_eq_true, and_assoc] using hstart

/-- An operator is cut off the text, unless it goes on. -/
theorem spellings_operator {sign : String} (hsign : sign ∈ operators) (rest : List Char)
    (hrest : ∀ c ∈ rest.head?, isApart sign.toList c = true) :
    spellings (sign.toList ++ rest) = .operator sign :: spellings rest := by
  have hoperator := operatorAt?_append hsign hrest
  obtain ⟨cs, rfl⟩ : ∃ cs, sign = String.ofList cs := ⟨sign.toList, String.ofList_toList.symm⟩
  rw [String.toList_ofList] at *
  cases cs with
  | nil => exact absurd hsign (by decide)
  | cons c cs =>
      obtain ⟨hskip, hat, hquote, hdecimal, hname, hsecond⟩ := only_starts_operator hsign
      have hnext : ∀ d ∈ (cs ++ rest).head?, d ≠ '/' ∧ d ≠ '*' := by
        cases cs with
        | nil =>
            intro d hd
            have hapart := hrest d hd
            simp only [isApart, Bool.and_eq_true, bne_iff_ne] at hapart
            exact hapart.1
        | cons d ds => exact hsecond
      have hcomment : Region.startsComment c (cs ++ rest).head? = false := by
        cases hhead : (cs ++ rest).head? with
        | none => simp [Region.startsComment]
        | some d => simp [Region.startsComment, hnext d hhead]
      refine spellings_of_at _ hskip ?_
      rw [Lexeme.at_eq, hcomment, if_neg Bool.false_ne_true, if_neg hat, if_neg hquote,
        if_neg (by simp [hdecimal]), if_neg (by simp [hname]), Lexeme.sign, ← List.cons_append,
        hoperator]
      simp

theorem spellings_punctuation {c : Char} (h : isPunctuation c = true) (cs : List Char) :
    spellings (c :: cs) = .punct (String.ofList [c]) :: spellings cs := by
  refine spellings_of_at [] ?_ ?_
  all_goals
    simp only [isPunctuation, List.mem_cons, List.not_mem_nil, or_false, decide_eq_true_eq] at h
    rcases h with rfl | rfl | rfl | rfl | rfl | rfl | rfl | rfl <;> rfl

/-! ### Literals -/

theorem Text.only_starts_number {c : Char} (h : isDecimal c = true) :
    isSkipped c = false ∧ c ≠ '@' := by
  constructor
  · rw [Bool.eq_false_iff]
    intro hskip
    simp only [isSkipped, Bool.or_eq_true, beq_iff_eq] at hskip
    rcases hskip with (((rfl | rfl) | rfl) | rfl) | rfl <;> exact absurd h (by decide)
  · rintro rfl
    exact absurd h (by decide)

theorem not_quote_of_isPlain {c : Char} (h : Region.isPlain c = true) :
    ¬(c = '"' ∨ c = '\'') := by
  simp only [Region.isPlain, Bool.and_eq_true, bne_iff_ne] at h
  rintro (rfl | rfl)
  · exact h.1.2 rfl
  · exact h.2 rfl

theorem at_number {c : Char} (h : isDecimal c = true) (cs : List Char) :
    Lexeme.at c cs = Lexeme.number cs := by
  have hplain := Lexeme.isPlain_of_isDecimal h
  have hquote := not_quote_of_isPlain hplain
  simp only [Region.isPlain, Bool.and_eq_true, bne_iff_ne] at hplain
  rw [Lexeme.at_eq, if_neg (by simp [Region.startsComment, hplain.1.1]),
    if_neg (only_starts_number h).2, if_neg hquote, if_pos h]

/-- A run of digits ends where no digit follows. -/
theorem span_digits {digits : List Char} (h : ∀ c ∈ digits, isDecimal c = true) (rest : List Char)
    (hrest : rest.head?.any isDecimal = false) :
    (digits ++ rest).takeWhile isDecimal = digits ∧
      (digits ++ rest).dropWhile isDecimal = rest := by
  rw [List.takeWhile_append_of_pos h, List.dropWhile_append_of_pos h]
  cases rest with
  | nil => simp
  | cons c cs => simp_all

/-- The inside of a string literal: a backslash takes the next character along. -/
inductive Quotable (quote : Char) : List Char → Prop where
  | nil : Quotable quote []
  | plain {c : Char} {cs : List Char} (hquote : c ≠ quote) (hback : c ≠ '\\')
      (h : Quotable quote cs) : Quotable quote (c :: cs)
  | escaped (c : Char) {cs : List Char} (h : Quotable quote cs) : Quotable quote ('\\' :: c :: cs)

theorem Quotable.closingQuote?_append {quote : Char} {cs : List Char} (h : Quotable quote cs)
    (hback : quote ≠ '\\') (rest : List Char) :
    closingQuote? quote (cs ++ quote :: rest) = some (cs.length + 1) := by
  induction h with
  | nil => rw [List.nil_append, closingQuote?_cons hback, if_pos rfl]; rfl
  | plain hquote hplain _ ih =>
      rw [List.cons_append, closingQuote?_cons hplain, if_neg hquote, ih]
      rfl
  | escaped c _ ih =>
      rw [List.cons_append, List.cons_append, closingQuote?, ih]
      rfl

/-! ### Spellings that stand alone -/

namespace Spelling

/-- A spelling that is read back, in front of a space and at the end of the line. -/
def StandsAlone (w : Spelling) : Prop :=
  ∀ rest : List Char, (∀ c ∈ rest.head?, c = ' ') →
    spellings (w.text.toList ++ rest) = w :: spellings rest

theorem head?_of_space {p : Char → Bool} (hp : p ' ' = false) {rest : List Char}
    (h : ∀ c ∈ rest.head?, c = ' ') : rest.head?.any p = false := by
  cases hhead : rest.head? with
  | none => rfl
  | some c => rw [h c hhead, Option.any_some, hp]

theorem standsAlone_name (name : String) (hname : isName name.toList = true) :
    StandsAlone ⟨wordKind name, name⟩ :=
  fun _ hrest => spellings_name hname (head?_of_space (by decide) hrest)

theorem standsAlone_operator {sign : String} (hsign : sign ∈ operators) :
    StandsAlone (.operator sign) := by
  have hspace : ∀ s ∈ operators, isApart s.toList ' ' = true := by decide +kernel
  intro rest hrest
  refine spellings_operator hsign _ fun c hc => ?_
  rw [hrest c hc]
  exact hspace sign hsign

theorem standsAlone_punctuation {c : Char} (h : isPunctuation c = true) :
    StandsAlone (.punct (String.ofList [c])) := by
  intro rest _
  rw [punct, String.toList_ofList]
  exact spellings_punctuation h rest

/-- Digits. -/
theorem standsAlone_whole {c : Char} {digits : List Char} (hc : isDecimal c = true)
    (hdigits : ∀ d ∈ digits, isDecimal d = true) :
    StandsAlone ⟨.int, String.ofList (c :: digits)⟩ := by
  intro rest hrest
  obtain ⟨htake, hdrop⟩ := span_digits hdigits _ (head?_of_space (p := isDecimal) (by decide) hrest)
  have hpoint : rest.head? ≠ some '.' := fun h => absurd (hrest _ h) (by decide)
  rw [String.toList_ofList, List.cons_append]
  refine spellings_of_at _ (only_starts_number hc).1 ?_
  rw [at_number hc, Lexeme.number_eq, htake, hdrop, if_neg (by simp [hpoint])]

/-- Digits on both sides of a point. -/
theorem standsAlone_fraction {c d : Char} {digits more : List Char} (hc : isDecimal c = true)
    (hdigits : ∀ e ∈ digits, isDecimal e = true) (hd : isDecimal d = true)
    (hmore : ∀ e ∈ more, isDecimal e = true) :
    StandsAlone ⟨.float, String.ofList (c :: (digits ++ '.' :: d :: more))⟩ := by
  intro rest hrest
  have hspan := span_digits hdigits ('.' :: d :: (more ++ rest)) rfl
  have htake := (span_digits hmore _ (head?_of_space (p := isDecimal) (by decide) hrest)).1
  rw [String.toList_ofList, List.cons_append]
  refine spellings_of_at _ (only_starts_number hc).1 ?_
  rw [at_number hc, Lexeme.number_eq, List.append_assoc, List.cons_append, List.cons_append,
    hspan.1, hspan.2, if_pos (by simp [hd]), List.tail_cons, List.tail_cons, htake]
  simp only [List.length_append, List.length_cons]
  congr 1
  omega

/-- A closed literal. -/
theorem standsAlone_quoted {quote : Char} (hquote : quote = '"' ∨ quote = '\'') {body : List Char}
    (h : Quotable quote body) :
    StandsAlone ⟨.string, String.ofList (quote :: (body ++ [quote]))⟩ := by
  intro rest _
  have hback : quote ≠ '\\' := by rcases hquote with rfl | rfl <;> decide
  have hclose := h.closingQuote?_append hback rest
  have hstart : isSkipped quote = false ∧ quote ≠ '/' ∧ quote ≠ '@' := by
    rcases hquote with rfl | rfl <;> decide
  rw [String.toList_ofList, List.cons_append]
  refine spellings_of_at _ hstart.1 ?_
  rw [Lexeme.at_eq, if_neg (by simp [Region.startsComment, hstart.2.1]), if_neg hstart.2.2,
    if_pos hquote, List.append_assoc, List.singleton_append, hclose]
  simp

end Spelling

/-! ### Groups -/

section

variable {ts : List Token}

/-- Brackets pair as their spellings do. -/
theorem Token.pairs_of_spelling {o c : Token} {opening closing : String}
    (ho : o.spelling = .punct opening) (hc : c.spelling = .punct closing)
    (h : closing? opening = some closing) : o.Pairs c := by
  obtain ⟨hkind, rfl⟩ := Spelling.mk.inj ho
  obtain ⟨hkind', rfl⟩ := Spelling.mk.inj hc
  refine ⟨?_, hkind', h⟩
  unfold closing? at h
  split at h
  · rename_i htext
    simp [isOpening, hkind, htext]
  · rename_i htext
    simp [isOpening, hkind, htext]
  · rename_i htext
    simp [isOpening, hkind, htext]
  · simp at h

/-- What is spelled as a group is one. -/
theorem exists_group {opening closing : String} {inside : List Spelling}
    (h : ts.map Token.spelling = .punct opening :: (inside ++ [.punct closing]))
    (hclosing : closing? opening = some closing) :
    ∃ o us c, ts = o :: (us ++ [c]) ∧ o.spelling = .punct opening ∧ o.Pairs c ∧
      us.map Token.spelling = inside := by
  obtain ⟨o, more, rfl, ho, h⟩ := List.map_eq_cons_iff.1 h
  obtain ⟨us, cs, rfl, hus, hcs⟩ := List.map_eq_append_iff.1 h
  obtain ⟨c, rfl, hc⟩ := List.map_eq_singleton_iff.1 hcs
  exact ⟨o, us, c, rfl, ho, Token.pairs_of_spelling ho hc hclosing, hus⟩

/-- What is spelled as two parts with a sign between them is. -/
theorem exists_between {left right : List Spelling} {sign : Spelling}
    (h : ts.map Token.spelling = left ++ sign :: right) :
    ∃ us t vs, ts = us ++ t :: vs ∧ us.map Token.spelling = left ∧ t.spelling = sign ∧
      vs.map Token.spelling = right := by
  obtain ⟨us, more, rfl, hus, h⟩ := List.map_eq_append_iff.1 h
  obtain ⟨t, vs, rfl, ht, hvs⟩ := List.map_eq_cons_iff.1 h
  exact ⟨us, t, vs, rfl, hus, ht, hvs⟩

end

/-! ### Texts -/

/-- What is written with spaces is read back. -/
theorem spellings_joinWith {ws : List Spelling} (h : ∀ w ∈ ws, w.StandsAlone) :
    spellings (joinWith ' ' (ws.map fun w => w.text.toList)) = ws := by
  induction ws with
  | nil => exact spellings_nil
  | cons w ws ih =>
      rw [List.forall_mem_cons] at h
      cases ws with
      | nil => simpa [joinWith] using h.1 [] (by simp)
      | cons v vs =>
          rw [List.map_cons, joinWith_cons (by simp), h.1 _ (by simp), spellings_space, ih h.2]

/-- The code tokens of a line are what is written in it, comments aside. -/
theorem map_spelling_codeTokens (text : List Char) (line : Nat) :
    (codeTokens (lexLine text line false).1).map Token.spelling =
      (spellings text).filter fun w => w.kind != .comment := by
  rw [lexLine, if_neg (by simp), ← map_spelling_lexFrom line 0, List.filter_map]
  rfl

/-- The type of an expression is found from its tokens; comments have none. -/
theorem Expression.inferText_of_spellings {m : Type → Type} [Monad m] [MonadLiftT (Except Fault) m]
    {a : Analysis} {f : Declaration → m Ty} {text : List Char} {ws : List Spelling}
    (h : spellings text = ws) (hcomment : ∀ w ∈ ws, w.kind ≠ .comment) {line : Int} {type : m Ty}
    (htype : ∀ ts : List Token, ts.map Token.spelling = ws → inferTokens a f ts line = type) :
    inferText a f text line = type := by
  refine htype _ ?_
  rw [map_spelling_codeTokens, h, List.filter_eq_self]
  simpa using hcomment

end Polyloft
