import Polyloft.Proofs.Token.Spelling

/-!
# Polyloft.Proofs.Inference.Numeric

Expressions of numbers. `Numeric` is the syntax of whole and fractional numbers with parentheses,
minus signs and the five arithmetic operators. Inference sees only the flat tokens of such an
expression. It finds `Float` if there is a fraction anywhere in the expression, and `Int` if not
(`Numeric.typed`).

## Proof shape

Inference takes an expression apart at its operators and drops what is empty between two of them, so
that it sees the operands that no sign stands before (`Numeric.operands`). The induction is on the
expression; besides its type it carries the types of these operands, and how the expression is read
as a chain: only what has no operator is one, and nothing is one in front of an operator
(`Numeric.Typed`).
-/

namespace Polyloft

open Polyloft.Text Expression

/-! ### Syntax -/

/-- A run of digits, at least one. -/
structure Digits where
  first : Char
  more : List Char
  isDecimal_first : isDecimal first = true
  isDecimal_more : ∀ c ∈ more, isDecimal c = true

def Digits.chars (ds : Digits) : List Char :=
  ds.first :: ds.more

/-- A number, possibly with digits behind a point. -/
inductive Number where
  | whole (digits : Digits)
  | fraction (whole fraction : Digits)

/-- The category and the text of a number. -/
def Number.spelling : Number → Spelling
  | whole ds => ⟨.int, String.ofList ds.chars⟩
  | fraction ds es => ⟨.float, String.ofList (ds.chars ++ '.' :: es.chars)⟩

def Number.isFraction : Number → Bool
  | whole _ => false
  | fraction _ _ => true

/-- The arithmetic operators. -/
inductive ArithmeticOperator where
  | plus | minus | times | divide | modulo
deriving DecidableEq, Repr

def ArithmeticOperator.sign : ArithmeticOperator → String
  | plus => "+"
  | minus => "-"
  | times => "*"
  | divide => "/"
  | modulo => "%"

/-- Expressions of numbers. -/
inductive Numeric where
  | number (x : Number)
  | parens (inside : Numeric)
  | negative (operand : Numeric)
  | binary (left : Numeric) (op : ArithmeticOperator) (right : Numeric)

namespace Numeric

/-- The tokens of an expression. -/
def spelled : Numeric → List Spelling
  | number x => [x.spelling]
  | parens inside => .punct "(" :: (inside.spelled ++ [.punct ")"])
  | negative operand => .operator "-" :: operand.spelled
  | binary left op right => left.spelled ++ .operator op.sign :: right.spelled

/-- Is there a fractional number in the expression? -/
def hasFraction : Numeric → Bool
  | number x => x.isFraction
  | parens inside => inside.hasFraction
  | negative operand => operand.hasFraction
  | binary left _ right => left.hasFraction || right.hasFraction

/-- One fractional number makes the value fractional. -/
def type (n : Numeric) : Ty :=
  if n.hasFraction then .float else .int

/-- No operator stands outside of parentheses, signs aside. -/
def isChain : Numeric → Bool
  | number _ => true
  | parens _ => true
  | negative operand => operand.isChain
  | binary _ _ _ => false

/-- What the operators outside of parentheses stand between. -/
def operands : Numeric → List Numeric
  | number x => [number x]
  | parens inside => [parens inside]
  | negative operand => operand.operands
  | binary left _ right => left.operands ++ right.operands

theorem spelled_ne_nil (n : Numeric) : n.spelled ≠ [] := by
  cases n <;> simp [spelled]

theorem operands_ne_nil (n : Numeric) : n.operands ≠ [] := by
  induction n with
  | number => simp [operands]
  | parens => simp [operands]
  | negative _ ih => exact ih
  | binary _ _ _ ih _ => simp [operands, ih]

theorem hasFraction_eq_any_operands (n : Numeric) :
    n.hasFraction = n.operands.any hasFraction := by
  induction n with
  | number => simp [operands]
  | parens => simp [operands]
  | negative _ ih => exact ih
  | binary _ _ _ ihleft ihright => rw [hasFraction, operands, List.any_append, ihleft, ihright]

/-- A fraction is there if it is written. -/
theorem hasFraction_iff {n : Numeric} :
    n.hasFraction = true ↔ ∃ w ∈ n.spelled, w.kind = .float := by
  induction n with
  | number x => cases x <;> simp [hasFraction, spelled, Number.isFraction, Number.spelling]
  | parens inside ih => simp [hasFraction, spelled, ih, Spelling.punct]
  | negative operand ih => simp [hasFraction, spelled, ih, Spelling.operator]
  | binary left op right ihleft ihright =>
      simp [hasFraction, spelled, ihleft, ihright, Spelling.operator, or_and_right, exists_or]

end Numeric

/-! ### Tokens -/

/-- A token of an expression of numbers. -/
def Spelling.isNumeric (w : Spelling) : Bool :=
  w.kind == .int || w.kind == .float || (w.kind == .operator && isArithmeticOperator w.text) ||
    w == .punct "(" || w == .punct ")"

theorem Spelling.kind_ne_comment_of_isNumeric {w : Spelling} (h : w.isNumeric = true) :
    w.kind ≠ .comment := by
  intro hkind
  simp only [isNumeric, hkind, Bool.or_eq_true, beq_iff_eq] at h
  rcases h with (h | rfl) | rfl
  · simp at h
  · simp [punct] at hkind
  · simp [punct] at hkind

theorem ArithmeticOperator.isArithmeticOperator_sign (op : ArithmeticOperator) :
    isArithmeticOperator op.sign = true := by
  cases op <;> rfl

theorem Numeric.isNumeric_of_mem {n : Numeric} {w : Spelling} (hw : w ∈ n.spelled) :
    w.isNumeric = true := by
  induction n with
  | number x =>
      obtain rfl := List.mem_singleton.1 hw
      cases x <;> rfl
  | parens inside ih =>
      simp only [spelled, List.mem_cons, List.mem_append, List.not_mem_nil, or_false] at hw
      rcases hw with rfl | hw | rfl
      · rfl
      · exact ih hw
      · rfl
  | negative operand ih =>
      rcases List.mem_cons.1 hw with rfl | hw
      · rfl
      · exact ih hw
  | binary left op right ihleft ihright =>
      simp only [spelled, List.mem_append, List.mem_cons] at hw
      rcases hw with hw | rfl | hw
      · exact ihleft hw
      · simp [Spelling.isNumeric, Spelling.operator, op.isArithmeticOperator_sign]
      · exact ihright hw

theorem Number.standsAlone (x : Number) : x.spelling.StandsAlone := by
  cases x with
  | whole ds => exact Spelling.standsAlone_whole ds.isDecimal_first ds.isDecimal_more
  | fraction ds es =>
      exact Spelling.standsAlone_fraction ds.isDecimal_first ds.isDecimal_more es.isDecimal_first
        es.isDecimal_more

/-- Every token of an expression can be written with spaces around it. -/
theorem Numeric.standsAlone {n : Numeric} {w : Spelling} (hw : w ∈ n.spelled) :
    w.StandsAlone := by
  induction n with
  | number x =>
      obtain rfl := List.mem_singleton.1 hw
      exact x.standsAlone
  | parens inside ih =>
      simp only [spelled, List.mem_cons, List.mem_append, List.not_mem_nil, or_false] at hw
      rcases hw with rfl | hw | rfl
      · exact Spelling.standsAlone_punctuation (by decide : isPunctuation '(' = true)
      · exact ih hw
      · exact Spelling.standsAlone_punctuation (by decide : isPunctuation ')' = true)
  | negative operand ih =>
      rcases List.mem_cons.1 hw with rfl | hw
      · exact Spelling.standsAlone_operator (by decide)
      · exact ih hw
  | binary left op right ihleft ihright =>
      simp only [spelled, List.mem_append, List.mem_cons] at hw
      rcases hw with hw | rfl | hw
      · exact ihleft hw
      · exact Spelling.standsAlone_operator (by cases op <;> decide)
      · exact ihright hw

namespace Token

variable {t o c : Token}

/-- Signs that are not used in expressions of numbers. -/
theorem isSymbol_of_isNumeric (h : t.spelling.isNumeric = true) {s : String}
    (hs : isArithmeticOperator s = false ∧ s ≠ "(" ∧ s ≠ ")") : t.isSymbol s = false := by
  rw [Bool.eq_false_iff]
  intro hsymbol
  rw [isSymbol, Bool.and_eq_true, Bool.or_eq_true, beq_iff_eq, beq_iff_eq, beq_iff_eq] at hsymbol
  obtain ⟨hkind, rfl⟩ := hsymbol
  rcases hkind with hkind | hkind <;>
    simp [Spelling.isNumeric, spelling, hkind, hs, Spelling.punct] at h

@[inherit_doc isSymbol_of_isNumeric]
theorem isOperatorIn_of_isNumeric (h : t.spelling.isNumeric = true) {isOperator : String → Bool}
    (hs : ∀ s, isArithmeticOperator s = true → isOperator s = false) :
    t.isOperatorIn isOperator = false := by
  rw [Bool.eq_false_iff]
  intro hoperator
  simp only [isOperatorIn, isKeyword, Bool.and_eq_true, Bool.or_eq_true, beq_iff_eq] at hoperator
  obtain ⟨hkind | ⟨hkind, -⟩, hoperator⟩ := hoperator
  · have harithmetic : isArithmeticOperator t.text = true := by
      simpa [Spelling.isNumeric, spelling, hkind, Spelling.punct] using h
    simp [hs t.text harithmetic] at hoperator
  · simp [Spelling.isNumeric, spelling, hkind, Spelling.punct] at h

/-- What is neither a whole number nor a sign is a fraction. -/
theorem kind_of_isNumeric (h : t.spelling.isNumeric = true)
    (hnot : ((t.kind ≠ .int ∧ t.kind ≠ .operator) ∧ t.isSymbol "(" = false) ∧
      t.isSymbol ")" = false) : t.kind = .float := by
  have hpunct (s : String) (hs : t.isSymbol s = false) : (t.spelling == .punct s) = false := by
    rw [beq_eq_false_iff_ne]
    rintro heq
    obtain ⟨hkind, htext⟩ := Spelling.mk.inj heq
    simp [isSymbol, hkind, htext] at hs
  have hkinds : t.spelling.kind ≠ .int ∧ t.spelling.kind ≠ .operator := hnot.1.1
  have hfloat : t.spelling.kind = .float := by
    simpa [Spelling.isNumeric, hpunct _ hnot.1.2, hpunct _ hnot.2, hkinds] using h
  exact hfloat

end Token

/-! ### Structure -/

variable {ts : List Token}

/-- The operator between two operands. -/
theorem ArithmeticOperator.isOperatorIn (op : ArithmeticOperator) {t : Token}
    (ht : t.spelling = .operator op.sign) :
    t.isBracket = false ∧ t.isOperatorIn isArithmeticOperator = true := by
  obtain ⟨hkind, htext⟩ := Spelling.mk.inj ht
  constructor
  · refine Token.isBracket_of_text ?_
    cases op <;> simp [htext, sign]
  · simp [Token.isOperatorIn, hkind, htext, op.isArithmeticOperator_sign]

theorem Number.kind_eq {x : Number} {t : Token} (ht : t.spelling = x.spelling) :
    t.kind = if x.isFraction then .float else .int := by
  cases x <;> exact (Spelling.mk.inj ht).1

theorem Number.not_sign {x : Number} {t : Token} (ht : t.spelling = x.spelling) :
    t.kind ≠ .operator ∧ t.kind ≠ .punct := by
  rw [kind_eq ht]
  split <;> decide

namespace Numeric

theorem isNumeric_of_spelled {n : Numeric} (h : ts.map Token.spelling = n.spelled) {t : Token}
    (ht : t ∈ ts) : t.spelling.isNumeric = true :=
  isNumeric_of_mem (h ▸ List.mem_map_of_mem ht)

theorem bracketed {n : Numeric} (h : ts.map Token.spelling = n.spelled) : Bracketed ts := by
  induction n generalizing ts with
  | number x =>
      obtain ⟨t, rfl, ht⟩ := List.map_eq_singleton_iff.1 h
      exact .plain (Token.isBracket_of_kind (Number.not_sign ht)) .nil
  | parens inside ih =>
      obtain ⟨o, us, c, rfl, -, hpair, hus⟩ := exists_group h rfl
      exact .group hpair (ih hus) .nil
  | negative operand ih =>
      obtain ⟨t, us, rfl, ht, hus⟩ := List.map_eq_cons_iff.1 h
      exact .plain (ArithmeticOperator.minus.isOperatorIn ht).1 (ih hus)
  | binary left op right ihleft ihright =>
      obtain ⟨us, t, vs, rfl, hus, ht, hvs⟩ := exists_between h
      exact (ihleft hus).append (.plain (op.isOperatorIn ht).1 (ihright hvs))

/-- The operands are what the operators outside of parentheses cut. -/
theorem map_operands {n : Numeric} (h : ts.map Token.spelling = n.spelled) :
    (Polyloft.operands isArithmeticOperator ts).map (List.map Token.spelling) =
      n.operands.map spelled := by
  let isCut (t : Token) : Bool := t.isOperatorIn isArithmeticOperator
  rw [operands_eq]
  induction n generalizing ts with
  | number x =>
      obtain ⟨t, rfl, ht⟩ := List.map_eq_singleton_iff.1 h
      have hcut : isCut t = false := by
        simp only [isCut, Token.isOperatorIn, Token.isKeyword, Number.kind_eq ht]
        split <;> rfl
      have huncut : Uncut isCut [t] :=
        .plain (Token.isBracket_of_kind (Number.not_sign ht)) hcut .nil
      rw [huncut.cutParts_eq (by simp), List.map_singleton, h, operands, List.map_singleton]
  | parens inside ih =>
      obtain ⟨o, us, c, rfl, ho, hpair, hus⟩ := exists_group h rfl
      have hcut : isCut o = false := by
        simp [isCut, Token.isOperatorIn, Token.isKeyword, hpair.texts.1]
      have huncut : Uncut isCut (o :: (us ++ [c])) := .group hpair hcut (bracketed hus) .nil
      rw [huncut.cutParts_eq (by simp), List.map_singleton, h, operands, List.map_singleton]
  | negative operand ih =>
      obtain ⟨t, us, rfl, ht, hus⟩ := List.map_eq_cons_iff.1 h
      obtain ⟨hbracket, hcut⟩ := ArithmeticOperator.minus.isOperatorIn ht
      have hparts := Bracketed.nil.cutParts_append_cut isCut hbracket hcut us
      rw [List.nil_append] at hparts
      rw [hparts, operands, ← ih hus]
      rfl
  | binary left op right ihleft ihright =>
      obtain ⟨us, t, vs, rfl, hus, ht, hvs⟩ := exists_between h
      obtain ⟨hbracket, hcut⟩ := op.isOperatorIn ht
      rw [(bracketed hus).cutParts_append_cut isCut hbracket hcut, List.map_append,
        ihleft hus, ihright hvs, operands, List.map_append]

end Numeric

/-! ### Chains -/

namespace Token

/-- An operator between two operands. -/
def isInfix (t : Token) : Bool :=
  t.kind == .operator && (isArithmeticOperator t.text || isTruthOperator t.text)

theorem isSymbol_of_isInfix {t : Token} (h : t.isInfix = true) {s : String}
    (hs : isArithmeticOperator s = false ∧ isTruthOperator s = false) : t.isSymbol s = false := by
  rw [Bool.eq_false_iff]
  intro hsymbol
  rw [isSymbol, Bool.and_eq_true, beq_iff_eq] at hsymbol
  obtain ⟨-, rfl⟩ := hsymbol
  simp [isInfix, hs] at h

end Token

namespace Expression

variable {m : Type → Type} [Monad m] {a : Analysis} {f : Declaration → m Ty} {line : Int}
  {t o c : Token} {us rest : List Token}

/-- A chain ends in front of an operator, and then it is no chain as a whole. -/
theorem chain_of_isInfix (h : ∀ t ∈ rest.head?, t.isInfix = true) (current : Ty) :
    chain a f current rest = pure (if rest.isEmpty then some current else none) := by
  cases rest with
  | nil =>
      rw [chain]
      rfl
  | cons t rest =>
      have hsymbol {s : String} (hs : isArithmeticOperator s = false ∧ isTruthOperator s = false) :
          ¬t.isSymbol s = true := by
        rw [Token.isSymbol_of_isInfix (h t rfl) hs]
        exact Bool.false_ne_true
      rw [chain_cons, if_neg (hsymbol (by decide)), if_neg (hsymbol (by decide)),
        if_neg (hsymbol (by decide))]
      rfl

variable [LawfulMonad m] [MonadLiftT (Except Fault) m]

theorem inferChain_of_literal {type : Ty} (h : literalType? t = some type) (rest : List Token) :
    inferChain a f (t :: rest) line = chain a f type rest := by
  rw [inferChain, inferPrimary_cons, h, Option.elim_some, pure_bind]

theorem literalType?_eq_none (h : t.kind = .operator ∨ t.kind = .punct) :
    literalType? t = none := by
  rcases h with h | h <;> rw [literalType?, h]

theorem inferChain_of_minus (ht : t.spelling = .operator "-") (hne : ts ≠ [])
    {result : Option Ty} (h : inferChain a f ts line = pure result) :
    inferChain a f (t :: ts) line = pure result := by
  obtain ⟨hkind, htext⟩ := Spelling.mk.inj ht
  have hminus : t.isSymbol "-" = true := by simp [Token.isSymbol, hkind, htext]
  rw [inferChain, inferPrimary_cons, literalType?_eq_none (.inl hkind), Option.elim_none,
    if_pos (by simpa [hminus] using hne), h, pure_bind, pure_bind]
  cases result with
  | none => rfl
  | some type =>
      dsimp only [Option.map_some]
      rw [chain]

theorem inferChain_of_parens (hpair : o.Pairs c) (ho : o.text = "(") (hus : Bracketed us)
    {type : Ty} (h : inferTokens a f us line = pure type) (rest : List Token) :
    inferChain a f (o :: (us ++ c :: rest)) line = chain a f type rest := by
  have hkind := hpair.texts.1
  rw [inferChain, inferPrimary_cons, literalType?_eq_none (.inr hkind), Option.elim_none,
    if_neg (by simp [Token.isSymbol, ho]), if_neg (by simp [Token.isSymbol, ho]),
    if_neg (by simp [Token.isSymbol, ho]), if_pos (by simp [Token.isSymbol, ho, hkind]),
    group?_of_pairs hpair hus, Option.elim_some, h, pure_bind, pure_bind]

/-- Parentheses around the whole do not matter. -/
theorem inferTokens_of_parens (hpair : o.Pairs c) (ho : o.text = "(") (hus : Bracketed us) :
    inferTokens a f (o :: (us ++ [c])) line = inferTokens a f us line := by
  rw [inferTokens_eq, stripParens_of_pairs hpair ho hus, ← inferTokens_eq]

/-- A chain is read as one. -/
theorem inferTokens_of_chain (hne : ts ≠ []) (hstrip : stripParens ts = ts)
    (harrow : ∀ t ∈ ts, t.isSymbol "=>" = false) {type : Ty}
    (h : inferChain a f ts line = pure (some type)) : inferTokens a f ts line = pure type := by
  rw [inferTokens_eq, hstrip, if_neg (by simp_all), h, pure_bind]

/-- Parts are typed one by one. -/
theorem mapM_inferTokens {α : Type} {spelled : α → List Spelling} {type : α → Ty}
    {parts : List (List Token)} {es : List α}
    (hparts : parts.map (List.map Token.spelling) = es.map spelled)
    (h : ∀ e ∈ es, ∀ us : List Token, us.map Token.spelling = spelled e →
      inferTokens a f us line = pure (type e)) :
    (parts.mapM fun part => inferTokens a f part line) = pure (es.map type) := by
  induction parts generalizing es with
  | nil =>
      obtain rfl : es = [] := by simpa using hparts
      rfl
  | cons part parts ih =>
      cases es with
      | nil => simp at hparts
      | cons e es =>
          rw [List.map_cons, List.map_cons, List.cons.injEq] at hparts
          rw [List.forall_mem_cons] at h
          rw [List.mapM_cons, h.1 part hparts.1, pure_bind, ih hparts.2 h.2, pure_bind]
          rfl

end Expression

/-! ### Types -/

namespace Numeric

open Expression

variable {m : Type → Type} [Monad m] [MonadLiftT (Except Fault) m] (a : Analysis)
  (f : Declaration → m Ty) (line : Int)

/-- What inference finds out about an expression of numbers: its type, the types of its operands,
and what it is as a chain in front of an operator or of nothing. -/
structure Typed (n : Numeric) : Prop where
  type : ∀ ts : List Token, ts.map Token.spelling = n.spelled →
    inferTokens a f ts line = pure n.type
  operands : ∀ o ∈ n.operands, ∀ ts : List Token, ts.map Token.spelling = o.spelled →
    inferTokens a f ts line = pure o.type
  chain : ∀ ts rest : List Token, ts.map Token.spelling = n.spelled →
    (∀ t ∈ rest.head?, t.isInfix = true) →
    inferChain a f (ts ++ rest) line =
      pure (if n.isChain && rest.isEmpty then some n.type else none)

variable {a f line} {n : Numeric}

theorem isSymbol_of_spelled (h : ts.map Token.spelling = n.spelled) {s : String}
    (hs : isArithmeticOperator s = false ∧ s ≠ "(" ∧ s ≠ ")") :
    ∀ t ∈ ts, t.isSymbol s = false :=
  fun _ ht => Token.isSymbol_of_isNumeric (isNumeric_of_spelled h ht) hs

theorem splitTop_of_spelled (h : ts.map Token.spelling = n.spelled) {isOperator : String → Bool}
    (hs : ∀ s, isArithmeticOperator s = true → isOperator s = false) :
    splitTop isOperator ts = [] :=
  splitTop_eq_nil fun _ ht => Token.isOperatorIn_of_isNumeric (isNumeric_of_spelled h ht) hs

theorem ne_nil_of_spelled (h : ts.map Token.spelling = n.spelled) : ts ≠ [] := by
  rintro rfl
  exact n.spelled_ne_nil h.symm

/-- The operators that are not arithmetic. -/
theorem not_truth_of_arithmetic {s : String} (h : isArithmeticOperator s = true) :
    isTruthOperator s = false ∧ isRangeOperator s = false := by
  have hs : s ∈ ["+", "-", "*", "/", "%"] := List.contains_iff_mem.1 h
  simp only [List.mem_cons, List.not_mem_nil, or_false] at hs
  rcases hs with rfl | rfl | rfl | rfl | rfl <;> decide

theorem isFloating_type (n : Numeric) : n.type.isFloating = n.hasFraction := by
  rw [type]
  split <;> simp_all [Ty.isFloating]

/-- A fraction among the types of the operands makes the whole one. -/
theorem arithmeticType_eq (n : Numeric) (h : n.hasFraction = true) (hasPlus : Bool) :
    arithmeticType hasPlus (n.operands.map type) = n.type := by
  have hany : (n.operands.map type).any Ty.isFloating = true := by
    rw [List.any_map, ← h, hasFraction_eq_any_operands]
    congr 1
    funext o
    exact o.isFloating_type
  rw [arithmeticType, if_pos hany, type, if_pos h]

/-- A fraction is there if one of the tokens is. -/
theorem hasFraction_iff_of_spelled (h : ts.map Token.spelling = n.spelled) :
    n.hasFraction = true ↔ ∃ t ∈ ts, t.kind = .float := by
  rw [hasFraction_iff, ← h]
  simp [Token.spelling]

theorem operands_ne_nil_of_spelled (h : ts.map Token.spelling = n.spelled) :
    Polyloft.operands isArithmeticOperator ts ≠ [] := by
  intro hnil
  have hparts := map_operands h
  rw [hnil] at hparts
  exact n.operands_ne_nil (List.map_eq_nil_iff.1 hparts.symm)

/-- An operand that is one fraction. -/
theorem hasFraction_of_singleton_mem (h : ts.map Token.spelling = n.spelled) {t : Token}
    (ht : [t] ∈ Polyloft.operands isArithmeticOperator ts) (hfloat : t.kind = .float) :
    n.hasFraction = true := by
  have hmem : [t].map Token.spelling ∈ n.operands.map spelled :=
    map_operands h ▸ List.mem_map_of_mem ht
  obtain ⟨o, ho, hspelled⟩ := List.mem_map.1 hmem
  rw [hasFraction_eq_any_operands, List.any_eq_true]
  exact ⟨o, ho, (hasFraction_iff_of_spelled hspelled.symm).2 ⟨t, List.mem_singleton_self t, hfloat⟩⟩

/-- What the written form decides about the type is right, and it decides all but fractions. -/
theorem literalArithmetic?_of_spelled (h : ts.map Token.spelling = n.spelled) :
    literalArithmetic? ts (Polyloft.operands isArithmeticOperator ts) = some n.type ∨
      literalArithmetic? ts (Polyloft.operands isArithmeticOperator ts) = none ∧
        n.hasFraction = true := by
  rw [literalArithmetic?, if_neg (by simpa using operands_ne_nil_of_spelled h)]
  split
  · rename_i hany
    obtain ⟨part, hpart, hfloat⟩ := List.any_eq_true.1 hany
    split at hfloat
    · have hfraction := hasFraction_of_singleton_mem h hpart (beq_iff_eq.1 hfloat)
      exact .inl (by rw [type, if_pos hfraction])
    · simp at hfloat
  · split
    · rename_i hall
      have hwhole : n.hasFraction = false := by
        rw [Bool.eq_false_iff, Ne, hasFraction_iff_of_spelled h]
        rintro ⟨t, ht, hkind⟩
        simpa [hkind, Token.isSymbol] using List.all_eq_true.1 hall t ht
      exact .inl (by rw [type, hwhole]; rfl)
    · rename_i hall
      rw [Bool.not_eq_true, List.all_eq_false] at hall
      obtain ⟨t, ht, hnot⟩ := hall
      have hfloat := Token.kind_of_isNumeric (isNumeric_of_spelled h ht) (by simpa using hnot)
      exact .inr ⟨rfl, (hasFraction_iff_of_spelled h).2 ⟨t, ht, hfloat⟩⟩

variable [LawfulMonad m]

/-- An expression with an operator outside of parentheses, from the types of its operands. -/
theorem inferTokens_of_operands (h : ts.map Token.spelling = n.spelled)
    (hstrip : stripParens ts = ts) (hchain : inferChain a f ts line = pure none)
    (hsplit : splitTop isArithmeticOperator ts ≠ [])
    (hoperands : ∀ o ∈ n.operands, ∀ us : List Token, us.map Token.spelling = o.spelled →
      inferTokens a f us line = pure o.type) :
    inferTokens a f ts line = pure n.type := by
  have htruth := splitTop_of_spelled h fun s hs => (not_truth_of_arithmetic hs).1
  have hrange := splitTop_of_spelled h fun s hs => (not_truth_of_arithmetic hs).2
  have harrow := isSymbol_of_spelled h (s := "=>") (by decide)
  have hbang := isSymbol_of_spelled h (s := "!") (by decide)
  have hhead : ts.head?.any (·.isSymbol "!") = false := by
    cases ts with
    | nil => rfl
    | cons t ts => exact hbang t (List.mem_cons_self ..)
  have hempty : (ts.isEmpty || ts.any (·.isSymbol "=>")) = false := by
    simpa [ne_nil_of_spelled h] using harrow
  rw [inferTokens_eq, hstrip, hempty, if_neg Bool.false_ne_true, hchain, pure_bind, htruth, hhead,
    hrange]
  dsimp only
  rw [if_neg (by simp), if_neg (by simp), if_neg (by simpa using hsplit)]
  rcases literalArithmetic?_of_spelled h with hliteral | ⟨hliteral, hfraction⟩
  · rw [hliteral]
  · rw [hliteral]
    dsimp only
    rw [mapM_inferTokens (map_operands h) hoperands, pure_bind, arithmeticType_eq n hfraction]

variable (a f line)

theorem typed_number (x : Number) : (number x).Typed a f line := by
  have hchain : ∀ ts rest : List Token, ts.map Token.spelling = (number x).spelled →
      (∀ t ∈ rest.head?, t.isInfix = true) → inferChain a f (ts ++ rest) line =
        pure (if (number x).isChain && rest.isEmpty then some (number x).type else none) := by
    intro ts rest h hrest
    obtain ⟨t, rfl, ht⟩ := List.map_eq_singleton_iff.1 h
    have hliteral : literalType? t = some (number x).type := by
      rw [literalType?, Number.kind_eq ht, type, hasFraction]
      cases x.isFraction <;> rfl
    rw [List.singleton_append, inferChain_of_literal hliteral, chain_of_isInfix hrest]
    rfl
  have htype : ∀ ts : List Token, ts.map Token.spelling = (number x).spelled →
      inferTokens a f ts line = pure (number x).type := by
    intro ts h
    obtain ⟨t, rfl, ht⟩ := List.map_eq_singleton_iff.1 h
    have hstrip := stripParens_of_isSymbol
      (Token.isSymbol_eq_false_of_kind (Number.not_sign ht) "(") []
    exact inferTokens_of_chain (by simp) hstrip (isSymbol_of_spelled h (by decide))
      (by simpa [isChain] using hchain [t] [] h (by simp))
  exact ⟨htype, by simpa [operands] using htype, hchain⟩

variable {a f line}

theorem Typed.parens {inside : Numeric} (ih : inside.Typed a f line) :
    (parens inside).Typed a f line := by
  have htype : ∀ ts : List Token, ts.map Token.spelling = (Numeric.parens inside).spelled →
      inferTokens a f ts line = pure (Numeric.parens inside).type := by
    intro ts h
    obtain ⟨o, us, c, rfl, ho, hpair, hus⟩ := exists_group h rfl
    rw [inferTokens_of_parens hpair (Spelling.mk.inj ho).2 (bracketed hus), ih.type us hus]
    rfl
  refine ⟨htype, by simpa [Numeric.operands] using htype, ?_⟩
  intro ts rest h hrest
  obtain ⟨o, us, c, rfl, ho, hpair, hus⟩ := exists_group h rfl
  rw [List.cons_append, List.append_assoc, List.singleton_append,
    inferChain_of_parens hpair (Spelling.mk.inj ho).2 (bracketed hus) (ih.type us hus),
    chain_of_isInfix hrest]
  rfl

theorem Typed.negative {operand : Numeric} (ih : operand.Typed a f line) :
    (negative operand).Typed a f line := by
  have hchain : ∀ ts rest : List Token, ts.map Token.spelling = (Numeric.negative operand).spelled →
      (∀ t ∈ rest.head?, t.isInfix = true) → inferChain a f (ts ++ rest) line =
        pure (if operand.isChain && rest.isEmpty then some operand.type else none) := by
    intro ts rest h hrest
    obtain ⟨t, us, rfl, ht, hus⟩ := List.map_eq_cons_iff.1 h
    have hne : us ++ rest ≠ [] := by simp [ne_nil_of_spelled hus]
    rw [List.cons_append, inferChain_of_minus ht hne (ih.chain us rest hus hrest)]
  refine ⟨?_, ih.operands, hchain⟩
  intro ts h
  have hwhole := hchain ts [] h (by simp)
  obtain ⟨t, us, rfl, ht, hus⟩ := List.map_eq_cons_iff.1 h
  obtain ⟨hbracket, hcut⟩ := ArithmeticOperator.minus.isOperatorIn ht
  have hstrip : stripParens (t :: us) = t :: us := by
    refine stripParens_of_isSymbol ?_ us
    simp [Token.isSymbol, (Spelling.mk.inj ht).2]
  rw [List.append_nil] at hwhole
  by_cases hoperator : operand.isChain = true
  · refine inferTokens_of_chain (by simp) hstrip (isSymbol_of_spelled h (by decide)) ?_
    rw [hwhole, hoperator]
    rfl
  · refine inferTokens_of_operands h hstrip (by simpa [hoperator] using hwhole) ?_ ih.operands
    exact Bracketed.nil.splitTop_ne_nil hbracket hcut us

theorem Typed.binary {left right : Numeric} (op : ArithmeticOperator)
    (ihleft : left.Typed a f line) (ihright : right.Typed a f line) :
    (binary left op right).Typed a f line := by
  have hoperands : ∀ o ∈ (Numeric.binary left op right).operands, ∀ us : List Token,
      us.map Token.spelling = o.spelled → inferTokens a f us line = pure o.type := by
    intro o ho
    rcases List.mem_append.1 ho with ho | ho
    · exact ihleft.operands o ho
    · exact ihright.operands o ho
  have hchain : ∀ ts rest : List Token,
      ts.map Token.spelling = (Numeric.binary left op right).spelled →
        inferChain a f (ts ++ rest) line = pure none := by
    intro ts rest h
    obtain ⟨us, t, vs, rfl, hus, ht, -⟩ := exists_between h
    have hjoins : t.isInfix = true := by
      simp [Token.isInfix, (Spelling.mk.inj ht).1, (Spelling.mk.inj ht).2,
        op.isArithmeticOperator_sign]
    rw [List.append_assoc, ihleft.chain us _ hus (by simpa using hjoins)]
    simp
  refine ⟨?_, hoperands, fun ts rest h _ => hchain ts rest h⟩
  intro ts h
  have hwhole := hchain ts [] h
  rw [List.append_nil] at hwhole
  obtain ⟨us, t, vs, rfl, hus, ht, -⟩ := exists_between h
  obtain ⟨hbracket, hcut⟩ := op.isOperatorIn ht
  exact inferTokens_of_operands h
    ((bracketed hus).stripParens_append (ne_nil_of_spelled hus) (by simp)) hwhole
    ((bracketed hus).splitTop_ne_nil hbracket hcut vs) hoperands

/-- Every expression of numbers has its type. -/
theorem typed (n : Numeric) : n.Typed a f line := by
  induction n with
  | number x => exact typed_number a f line x
  | parens _ ih => exact ih.parens
  | negative _ ih => exact ih.negative
  | binary _ op _ ihleft ihright => exact ihleft.binary op ihright

end Numeric

end Polyloft
