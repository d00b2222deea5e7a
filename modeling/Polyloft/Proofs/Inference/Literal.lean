import Polyloft.Proofs.Inference.Numeric

/-!
# Polyloft.Proofs.Inference.Literal

Literal expressions have the type that their syntax tree has. `Literal` is the syntax of expressions
of numbers, closed string literals, truth values, parentheses, array literals, and comparisons and
logical combinations. `Literal.type` finds the type of a tree from the types of its parts.
Inference, which sees the flat tokens of the written expression and no tree, finds the same type,
whatever the document and the line are (`Analysis.literals_are_typed_by_parts`).

## Proof shape

The written expression is lexed into the tokens of the tree (`Literal.standsAlone`). All brackets
have partners, and commas stand inside of brackets only (`Literal.regular`), so that an array
literal is cut into its elements again (`Literal.map_splitCommas`). The induction on the tree
carries the type, and that an expression in front of an operator is no chain as a whole
(`Literal.Typed`).
-/

namespace Polyloft

open Polyloft.Text Expression

/-! ### Syntax -/

/-- A closed string literal. -/
structure Quoted where
  quote : Char
  body : List Char
  isQuote : quote = '"' ∨ quote = '\''
  quotable : Quotable quote body

def Quoted.chars (q : Quoted) : List Char :=
  q.quote :: (q.body ++ [q.quote])

/-- The operators of comparisons and logical combinations. -/
inductive TruthOperator where
  | equal | unequal | less | greater | atMost | atLeast | both | either
deriving DecidableEq, Repr

def TruthOperator.sign : TruthOperator → String
  | equal => "=="
  | unequal => "!="
  | less => "<"
  | greater => ">"
  | atMost => "<="
  | atLeast => ">="
  | both => "&&"
  | either => "||"

/-- Literal expressions. -/
inductive Literal where
  | numeric (n : Numeric)
  | text (q : Quoted)
  | truth (value : Bool)
  | parens (inside : Literal)
  | array (elements : List Literal)
  | relation (left : Literal) (op : TruthOperator) (right : Literal)

/-- Their types; `mixed` is an array whose elements have no common type. -/
inductive LiteralType where
  | int
  | float
  | string
  | bool
  | array (element : LiteralType)
  | mixed
deriving DecidableEq, Repr

namespace LiteralType

def toTy : LiteralType → Ty
  | int => .int
  | float => .float
  | string => .string
  | bool => .bool
  | array element => .array element.toTy
  | mixed => .array .any

/-- The type of an array literal from the types of its elements. -/
def ofElements : List LiteralType → LiteralType
  | [] => mixed
  | t :: ts => if ∀ u ∈ ts, u = t then array t else mixed

theorem exists_toTy_eq (t : LiteralType) : ∃ name args, t.toTy = .named name args := by
  cases t <;> exact ⟨_, _, rfl⟩

/-- Types of literals are the same if they are equal. -/
theorem same_toTy (t u : LiteralType) : Ty.same t.toTy u.toTy = decide (t = u) := by
  have hany (t : LiteralType) : Ty.same t.toTy .any = false ∧ Ty.same .any t.toTy = false := by
    obtain ⟨name, args, heq⟩ := t.exists_toTy_eq
    simp [heq, Ty.same]
  induction t generalizing u with
  | array t ih => cases u <;> simp [toTy, Ty.same, Ty.sameAll, ih, hany]
  | _ => cases u <;> simp [toTy, Ty.same, Ty.sameAll, hany]

theorem arrayType_map_toTy (ts : List LiteralType) :
    arrayType (ts.map toTy) = (ofElements ts).toTy := by
  cases ts with
  | nil => rfl
  | cons t ts =>
      obtain ⟨name, args, heq⟩ := t.exists_toTy_eq
      have hall : (ts.map toTy).all (Ty.same t.toTy ·) = true ↔ ∀ u ∈ ts, u = t := by
        rw [List.all_map, List.all_eq_true]
        refine forall₂_congr fun u _ => ?_
        rw [Function.comp_apply, same_toTy, decide_eq_true_iff, eq_comm]
      rw [List.map_cons, heq, arrayType, ← heq, ofElements]
      by_cases h : ∀ u ∈ ts, u = t
      · rw [if_pos (hall.2 h), if_pos h]
        rfl
      · rw [if_neg (mt hall.1 h), if_neg h]
        rfl

end LiteralType

namespace Literal

@[elab_as_elim]
theorem induction {motive : Literal → Prop} (numeric : ∀ n, motive (.numeric n))
    (text : ∀ q, motive (.text q)) (truth : ∀ value, motive (.truth value))
    (parens : ∀ inside, motive inside → motive (.parens inside))
    (array : ∀ elements, (∀ e ∈ elements, motive e) → motive (.array elements))
    (relation : ∀ left op right, motive left → motive right → motive (.relation left op right)) :
    ∀ e, motive e
  | .numeric n => numeric n
  | .text q => text q
  | .truth value => truth value
  | .parens inside =>
    parens inside (Literal.induction numeric text truth parens array relation inside)
  | .array elements =>
    array elements fun e _ => Literal.induction numeric text truth parens array relation e
  | .relation left op right =>
    relation left op right (Literal.induction numeric text truth parens array relation left)
      (Literal.induction numeric text truth parens array relation right)

mutual

/-- The tokens of an expression. -/
def spelled : Literal → List Spelling
  | numeric n => n.spelled
  | text q => [⟨.string, String.ofList q.chars⟩]
  | truth value => [⟨.keyword, if value then "true" else "false"⟩]
  | parens inside => .punct "(" :: (inside.spelled ++ [.punct ")"])
  | array elements => .punct "[" :: (spelledAll elements ++ [.punct "]"])
  | relation left op right => left.spelled ++ .operator op.sign :: right.spelled

/-- The tokens of expressions with commas between them. -/
def spelledAll : List Literal → List Spelling
  | [] => []
  | [e] => e.spelled
  | e :: es => e.spelled ++ .punct "," :: spelledAll es

end

/-- An expression as it is written, with a space between each two tokens. -/
def render (e : Literal) : List Char :=
  joinWith ' ' (e.spelled.map fun w => w.text.toList)

mutual

/-- The type of an expression. -/
def type : Literal → LiteralType
  | numeric n => if n.hasFraction then .float else .int
  | text _ => .string
  | truth _ => .bool
  | parens inside => inside.type
  | array elements => .ofElements (types elements)
  | relation _ _ _ => .bool

/-- The types of expressions. -/
def types : List Literal → List LiteralType
  | [] => []
  | e :: es => e.type :: types es

end

theorem types_eq_map (es : List Literal) : types es = es.map type := by
  induction es with
  | nil => rfl
  | cons e es ih => rw [types, ih, List.map_cons]

theorem spelledAll_cons (e : Literal) {es : List Literal} (h : es ≠ []) :
    spelledAll (e :: es) = e.spelled ++ .punct "," :: spelledAll es := by
  cases es with
  | nil => exact absurd rfl h
  | cons d es => rfl

theorem mem_spelledAll {es : List Literal} {w : Spelling} (hw : w ∈ spelledAll es) :
    w = .punct "," ∨ ∃ e ∈ es, w ∈ e.spelled := by
  induction es with
  | nil => simp [spelledAll] at hw
  | cons e es ih =>
      by_cases hes : es = []
      · subst hes
        exact .inr ⟨e, List.mem_cons_self .., hw⟩
      · rw [spelledAll_cons e hes, List.mem_append, List.mem_cons] at hw
        rcases hw with hw | hw | hw
        · exact .inr ⟨e, List.mem_cons_self .., hw⟩
        · exact .inl hw
        · exact (ih hw).imp_right fun ⟨d, hd, hw⟩ => ⟨d, List.mem_cons_of_mem _ hd, hw⟩

theorem spelled_ne_nil (e : Literal) : e.spelled ≠ [] := by
  cases e <;> simp [spelled, Numeric.spelled_ne_nil]

/-! ### Tokens -/

/-- Every token of an expression can be written with spaces around it, and is no comment. -/
theorem standsAlone {e : Literal} {w : Spelling} (hw : w ∈ e.spelled) :
    w.StandsAlone ∧ w.kind ≠ .comment := by
  have hpunct {c : Char} (h : isPunctuation c = true) :
      Spelling.StandsAlone (.punct (String.ofList [c])) ∧
        (Spelling.punct (String.ofList [c])).kind ≠ .comment :=
    ⟨Spelling.standsAlone_punctuation h, by simp [Spelling.punct]⟩
  induction e using Literal.induction with
  | numeric n =>
      exact ⟨Numeric.standsAlone hw,
        Spelling.kind_ne_comment_of_isNumeric (Numeric.isNumeric_of_mem hw)⟩
  | text q =>
      obtain rfl := List.mem_singleton.1 hw
      exact ⟨Spelling.standsAlone_quoted q.isQuote q.quotable, by simp⟩
  | truth value =>
      obtain rfl := List.mem_singleton.1 hw
      cases value
      · exact ⟨Spelling.standsAlone_name "false" (by decide), by simp⟩
      · exact ⟨Spelling.standsAlone_name "true" (by decide), by simp⟩
  | parens inside ih =>
      simp only [spelled, List.mem_cons, List.mem_append, List.not_mem_nil, or_false] at hw
      rcases hw with rfl | hw | rfl
      · exact hpunct (by decide : isPunctuation '(' = true)
      · exact ih hw
      · exact hpunct (by decide : isPunctuation ')' = true)
  | array elements ih =>
      simp only [spelled, List.mem_cons, List.mem_append, List.not_mem_nil, or_false] at hw
      rcases hw with rfl | hw | rfl
      · exact hpunct (by decide : isPunctuation '[' = true)
      · rcases mem_spelledAll hw with rfl | ⟨e, he, hw⟩
        · exact hpunct (by decide : isPunctuation ',' = true)
        · exact ih e he hw
      · exact hpunct (by decide : isPunctuation ']' = true)
  | relation left op right ihleft ihright =>
      simp only [spelled, List.mem_append, List.mem_cons] at hw
      rcases hw with hw | rfl | hw
      · exact ihleft hw
      · exact ⟨Spelling.standsAlone_operator (by cases op <;> decide),
          by simp [Spelling.operator]⟩
      · exact ihright hw

end Literal

theorem TruthOperator.isOperatorIn (op : TruthOperator) {t : Token}
    (ht : t.spelling = .operator op.sign) :
    t.isBracket = false ∧ t.isOperatorIn isTruthOperator = true ∧ t.isInfix = true := by
  obtain ⟨hkind, htext⟩ := Spelling.mk.inj ht
  have hsign : isTruthOperator op.sign = true := by cases op <;> rfl
  refine ⟨Token.isBracket_of_text ?_, ?_, ?_⟩
  · cases op <;> simp [htext, TruthOperator.sign]
  · simp [Token.isOperatorIn, hkind, htext, hsign]
  · simp [Token.isInfix, hkind, htext, hsign]

/-- Neither an arrow nor a negation. -/
def Token.IsQuiet (t : Token) : Prop :=
  t.isSymbol "=>" = false ∧ t.isSymbol "!" = false

/-- Tokens in which brackets have partners and commas stand in brackets only. -/
structure Regular (ts : List Token) : Prop where
  uncut : Uncut (·.isSymbol ",") ts
  quiet : ∀ t ∈ ts, t.IsQuiet

namespace Regular

variable {ts us vs : List Token} {t o c : Token}

theorem bracketed (h : Regular ts) : Bracketed ts :=
  h.uncut.bracketed

/-- A literal that is one token. -/
theorem single (h : t.kind ≠ .operator ∧ t.kind ≠ .punct) : Regular [t] := by
  have hsymbol := Token.isSymbol_eq_false_of_kind h
  exact ⟨.plain (Token.isBracket_of_kind h) (hsymbol ",") .nil,
    by simp [Token.IsQuiet, hsymbol]⟩

/-- A group may have commas in it. -/
theorem group (hpair : o.Pairs c) (hus : Bracketed us) (hquiet : ∀ t ∈ us, t.IsQuiet) :
    Regular (o :: (us ++ [c])) := by
  have hsymbol : o.isSymbol "," = false ∧ o.IsQuiet ∧ c.IsQuiet := by
    obtain ⟨-, ⟨ho, hc⟩ | ⟨ho, hc⟩ | ⟨ho, hc⟩⟩ := hpair.texts <;>
      simp [Token.IsQuiet, Token.isSymbol, ho, hc]
  refine ⟨.group hpair hsymbol.1 hus .nil, ?_⟩
  simpa [or_imp, forall_and, hsymbol.2] using hquiet

/-- Two parts with an operator between them. -/
theorem append (hus : Regular us) (ht : t.isBracket = false) (hjoins : t.isInfix = true)
    (hvs : Regular vs) : Regular (us ++ t :: vs) := by
  have hsymbol {s : String} := Token.isSymbol_of_isInfix (s := s) hjoins
  refine ⟨hus.uncut.append (.plain ht (hsymbol (by decide)) hvs.uncut), ?_⟩
  have hquiet : t.IsQuiet := ⟨hsymbol (by decide), hsymbol (by decide)⟩
  intro u hu
  rcases List.mem_append.1 hu with hu | hu
  · exact hus.quiet u hu
  · rcases List.mem_cons.1 hu with rfl | hu
    · exact hquiet
    · exact hvs.quiet u hu

end Regular

/-! ### Structure -/

namespace Literal

variable {ts : List Token}

/-- The comma between two elements. -/
theorem isSymbol_of_comma {t : Token} (ht : t.spelling = .punct ",") :
    t.isBracket = false ∧ t.isSymbol "," = true ∧ t.IsQuiet := by
  obtain ⟨hkind, htext⟩ := Spelling.mk.inj ht
  exact ⟨Token.isBracket_of_text (by simp [htext]), by simp [Token.isSymbol, hkind, htext],
    by simp [Token.IsQuiet, Token.isSymbol, htext]⟩

theorem bracketed_elements {es : List Literal}
    (hes : ∀ e ∈ es, ∀ ts : List Token, ts.map Token.spelling = e.spelled → Regular ts)
    (h : ts.map Token.spelling = spelledAll es) : Bracketed ts ∧ ∀ t ∈ ts, t.IsQuiet := by
  induction es generalizing ts with
  | nil =>
      obtain rfl := List.map_eq_nil_iff.1 h
      exact ⟨.nil, by simp⟩
  | cons e es ih =>
      rw [List.forall_mem_cons] at hes
      by_cases hne : es = []
      · subst hne
        have hfirst := hes.1 ts h
        exact ⟨hfirst.bracketed, hfirst.quiet⟩
      · rw [spelledAll_cons e hne] at h
        obtain ⟨us, t, vs, rfl, hus, ht, hvs⟩ := exists_between h
        obtain ⟨hbracket, -, hquiet⟩ := isSymbol_of_comma ht
        obtain ⟨hbracketed, hrest⟩ := ih hes.2 hvs
        refine ⟨(hes.1 us hus).bracketed.append (.plain hbracket hbracketed), ?_⟩
        rw [List.forall_mem_append, List.forall_mem_cons]
        exact ⟨(hes.1 us hus).quiet, hquiet, hrest⟩

theorem regular {e : Literal} (h : ts.map Token.spelling = e.spelled) : Regular ts := by
  induction e using Literal.induction generalizing ts with
  | numeric n =>
      have hplain {s : String} (hs : isArithmeticOperator s = false ∧ s ≠ "(" ∧ s ≠ ")") :=
        Numeric.isSymbol_of_spelled h hs
      exact ⟨(Numeric.bracketed h).uncut (hplain (by decide)),
        fun t ht => ⟨hplain (by decide) t ht, hplain (by decide) t ht⟩⟩
  | text q =>
      obtain ⟨t, rfl, ht⟩ := List.map_eq_singleton_iff.1 h
      exact .single (by simp [(Spelling.mk.inj ht).1])
  | truth value =>
      obtain ⟨t, rfl, ht⟩ := List.map_eq_singleton_iff.1 h
      exact .single (by simp [(Spelling.mk.inj ht).1])
  | parens inside ih =>
      obtain ⟨o, us, c, rfl, -, hpair, hus⟩ := exists_group h rfl
      exact .group hpair (ih hus).bracketed (ih hus).quiet
  | array elements ih =>
      obtain ⟨o, us, c, rfl, -, hpair, hus⟩ := exists_group h rfl
      obtain ⟨hbracketed, hquiet⟩ := bracketed_elements (fun e he ts => ih e he) hus
      exact .group hpair hbracketed hquiet
  | relation left op right ihleft ihright =>
      obtain ⟨us, t, vs, rfl, hus, ht, hvs⟩ := exists_between h
      obtain ⟨hbracket, -, hjoins⟩ := op.isOperatorIn ht
      exact (ihleft hus).append hbracket hjoins (ihright hvs)

theorem ne_nil_of_spelled {e : Literal} (h : ts.map Token.spelling = e.spelled) : ts ≠ [] := by
  rintro rfl
  exact e.spelled_ne_nil h.symm

/-- An array literal is cut into its elements. -/
theorem map_splitCommas {es : List Literal} (h : ts.map Token.spelling = spelledAll es) :
    (splitCommas ts).map (List.map Token.spelling) = es.map spelled := by
  rw [splitCommas_eq]
  induction es generalizing ts with
  | nil =>
      obtain rfl := List.map_eq_nil_iff.1 h
      rfl
  | cons e es ih =>
      by_cases hne : es = []
      · subst hne
        rw [(regular h).uncut.cutParts_eq (ne_nil_of_spelled h), List.map_singleton, h]
        rfl
      · rw [spelledAll_cons e hne] at h
        obtain ⟨us, t, vs, rfl, hus, ht, hvs⟩ := exists_between h
        obtain ⟨hbracket, hcut, -⟩ := isSymbol_of_comma ht
        have hfirst := regular hus
        rw [hfirst.bracketed.cutParts_append_cut (·.isSymbol ",") hbracket hcut,
          hfirst.uncut.cutParts_eq (ne_nil_of_spelled hus), List.map_append, List.map_singleton,
          hus, ih hvs]
        rfl

end Literal

/-! ### Inference -/

namespace Expression

variable {m : Type → Type} [Monad m] [LawfulMonad m] [MonadLiftT (Except Fault) m] {a : Analysis}
  {f : Declaration → m Ty} {line : Int} {t o c : Token} {us : List Token}

theorem inferChain_of_array (hpair : o.Pairs c) (ho : o.text = "[") (hus : Bracketed us)
    {types : List Ty}
    (h : ((splitCommas us).mapM fun part => inferTokens a f part line) = pure types)
    (rest : List Token) :
    inferChain a f (o :: (us ++ c :: rest)) line = chain a f (arrayType types) rest := by
  have hkind := hpair.texts.1
  rw [inferChain, inferPrimary_cons, literalType?_eq_none (.inr hkind), Option.elim_none,
    if_neg (by simp [Token.isSymbol, ho]), if_pos (by simp [Token.isSymbol, ho, hkind]),
    group?_of_pairs hpair hus, Option.elim_some, h, pure_bind, pure_bind]

/-- An operator of comparisons and logical combinations decides, if the whole is no chain. -/
theorem inferTokens_of_truth (hus : Bracketed us) (hne : us ≠ []) (ht : t.isBracket = false)
    (htruth : t.isOperatorIn isTruthOperator = true) {vs : List Token}
    (harrow : ∀ u ∈ us ++ t :: vs, u.isSymbol "=>" = false)
    (hchain : inferChain a f (us ++ t :: vs) line = pure none) :
    inferTokens a f (us ++ t :: vs) line = pure .bool := by
  have hsplit := hus.splitTop_ne_nil ht htruth vs
  have hempty : ((us ++ t :: vs).isEmpty || (us ++ t :: vs).any (·.isSymbol "=>")) = false := by
    rw [Bool.or_eq_false_iff, List.isEmpty_eq_false_iff, List.any_eq_false]
    exact ⟨by simp, fun u hu => by simp [harrow u hu]⟩
  rw [inferTokens_eq, hus.stripParens_append hne (by simp), hempty, if_neg Bool.false_ne_true,
    hchain, pure_bind]
  dsimp only
  rw [if_pos (by simp [hsplit])]

end Expression

namespace Literal

variable {m : Type → Type} [Monad m] [MonadLiftT (Except Fault) m] (a : Analysis)
  (f : Declaration → m Ty) (line : Int)

/-- What inference finds out about an expression: its type, and that it is no chain as a whole if an
operator follows. -/
structure Typed (e : Literal) : Prop where
  type : ∀ ts : List Token, ts.map Token.spelling = e.spelled →
    inferTokens a f ts line = pure e.type.toTy
  chain : ∀ ts : List Token, ts.map Token.spelling = e.spelled → ∀ t rest, t.isInfix = true →
    inferChain a f (ts ++ t :: rest) line = pure none

variable {a f line}

omit [MonadLiftT (Except Fault) m] in
/-- A chain in front of an operator is none. -/
theorem chain_before_operator {t : Token} (h : t.isInfix = true) (current : Ty)
    (rest : List Token) : Expression.chain a f current (t :: rest) = pure none := by
  rw [chain_of_isInfix (by simpa using h)]
  rfl

variable [LawfulMonad m]

theorem typed_numeric (n : Numeric) : (numeric n).Typed a f line := by
  have htyped : n.Typed a f line := n.typed
  constructor
  · intro ts h
    rw [htyped.type ts h, type, Numeric.type]
    split <;> rfl
  · intro ts h t rest ht
    rw [htyped.chain ts (t :: rest) h (by simpa using ht)]
    simp

/-- A literal that is one token. -/
theorem typed_of_token {e : Literal} {w : Spelling} (hspelled : e.spelled = [w])
    (hkind : w.kind ≠ .operator ∧ w.kind ≠ .punct)
    (hliteral : ∀ t : Token, t.spelling = w → literalType? t = some e.type.toTy) :
    e.Typed a f line := by
  constructor
  · intro ts h
    have hquiet := (regular h).quiet
    rw [hspelled] at h
    obtain ⟨t, rfl, rfl⟩ := List.map_eq_singleton_iff.1 h
    have hstrip := stripParens_of_isSymbol (Token.isSymbol_eq_false_of_kind hkind "(") []
    refine inferTokens_of_chain (by simp) hstrip (fun u hu => (hquiet u hu).1) ?_
    rw [inferChain_of_literal (hliteral t rfl), Expression.chain]
  · intro ts h t rest ht
    rw [hspelled] at h
    obtain ⟨u, rfl, hu⟩ := List.map_eq_singleton_iff.1 h
    rw [List.singleton_append, inferChain_of_literal (hliteral u hu), chain_before_operator ht]

theorem Typed.parens {inside : Literal} (ih : inside.Typed a f line) :
    (parens inside).Typed a f line := by
  constructor
  · intro ts h
    obtain ⟨o, us, c, rfl, ho, hpair, hus⟩ := exists_group h rfl
    rw [inferTokens_of_parens hpair (Spelling.mk.inj ho).2 (regular hus).bracketed, ih.type us hus]
    rfl
  · intro ts h t rest ht
    obtain ⟨o, us, c, rfl, ho, hpair, hus⟩ := exists_group h rfl
    rw [List.cons_append, List.append_assoc, List.singleton_append,
      inferChain_of_parens hpair (Spelling.mk.inj ho).2 (regular hus).bracketed (ih.type us hus),
      chain_before_operator ht]

theorem typed_array {elements : List Literal} (ih : ∀ e ∈ elements, e.Typed a f line) :
    (array elements).Typed a f line := by
  have hchain : ∀ ts : List Token, ts.map Token.spelling = (array elements).spelled → ∀ rest,
      inferChain a f (ts ++ rest) line =
        Expression.chain a f (array elements).type.toTy rest := by
    intro ts h rest
    obtain ⟨o, us, c, rfl, ho, hpair, hus⟩ := exists_group h rfl
    have hbracketed := (bracketed_elements (fun _ _ _ => regular) hus).1
    have htypes : (splitCommas us).mapM (fun part => inferTokens a f part line) =
        pure (elements.map fun e => e.type.toTy) :=
      mapM_inferTokens (map_splitCommas hus) fun e he us => (ih e he).type us
    have htype : arrayType (elements.map fun e => e.type.toTy) = (array elements).type.toTy := by
      rw [type, types_eq_map, ← LiteralType.arrayType_map_toTy, List.map_map]
      rfl
    rw [List.cons_append, List.append_assoc, List.singleton_append,
      inferChain_of_array hpair (Spelling.mk.inj ho).2 hbracketed htypes, htype]
  constructor
  · intro ts h
    have hwhole := hchain ts h []
    have hquiet := (regular h).quiet
    obtain ⟨o, us, c, rfl, ho, hpair, hus⟩ := exists_group h rfl
    have hstrip : stripParens (o :: (us ++ [c])) = o :: (us ++ [c]) :=
      stripParens_of_isSymbol (by simp [Token.isSymbol, (Spelling.mk.inj ho).2]) _
    rw [List.append_nil, Expression.chain] at hwhole
    exact inferTokens_of_chain (by simp) hstrip (fun u hu => (hquiet u hu).1) hwhole
  · intro ts h t rest ht
    rw [hchain ts h, chain_before_operator ht]

theorem Typed.relation {left right : Literal} (op : TruthOperator)
    (ihleft : left.Typed a f line) : (relation left op right).Typed a f line := by
  have hchain : ∀ ts rest : List Token,
      ts.map Token.spelling = (Literal.relation left op right).spelled →
        inferChain a f (ts ++ rest) line = pure none := by
    intro ts rest h
    obtain ⟨us, t, vs, rfl, hus, ht, -⟩ := exists_between h
    rw [List.append_assoc, List.cons_append]
    exact ihleft.chain us hus t _ (op.isOperatorIn ht).2.2
  refine ⟨?_, fun ts h t rest _ => hchain ts (t :: rest) h⟩
  intro ts h
  have hwhole := hchain ts [] h
  have hquiet := (regular h).quiet
  rw [List.append_nil] at hwhole
  obtain ⟨us, t, vs, rfl, hus, ht, -⟩ := exists_between h
  obtain ⟨hbracket, htruth, -⟩ := op.isOperatorIn ht
  exact inferTokens_of_truth (regular hus).bracketed (ne_nil_of_spelled hus) hbracket htruth
    (fun u hu => (hquiet u hu).1) hwhole

/-- Every literal expression has its type. -/
theorem typed (e : Literal) : e.Typed a f line := by
  induction e using Literal.induction with
  | numeric n => exact typed_numeric n
  | text q =>
      have hspelled : (text q).spelled = [⟨.string, String.ofList q.chars⟩] := by rw [spelled]
      refine typed_of_token hspelled (by simp) ?_
      intro t ht
      rw [literalType?, (Spelling.mk.inj ht).1]
      rfl
  | truth value =>
      have hspelled : (truth value).spelled = [⟨.keyword, if value then "true" else "false"⟩] := by
        rw [spelled]
      refine typed_of_token hspelled (by simp) ?_
      intro t ht
      rw [literalType?, (Spelling.mk.inj ht).1, (Spelling.mk.inj ht).2]
      cases value <;> rfl
  | parens _ ih => exact ih.parens
  | array _ ih => exact typed_array ih
  | relation _ op _ ihleft _ => exact ihleft.relation op

end Literal

/-- The type of a literal expression is the type of its syntax tree, in every document and on every
line, and nothing is remembered: `Float` for numbers with a fraction among them and `Int` for other
numbers, `String`, `Bool` for truth values, comparisons and logical combinations, the type of the
inside for parentheses, and `Array<T>` for elements that all have the type `T`, else
`Array<Any>`. -/
theorem Analysis.literals_are_typed_by_parts (a : Analysis) (e : Literal) (line : Int) :
    a.infer e.render line = pure e.type.toTy := by
  have hspellings : spellings e.render = e.spelled :=
    spellings_joinWith fun w hw => (Literal.standsAlone hw).1
  exact inferText_of_spellings hspellings (fun w hw => (Literal.standsAlone hw).2) e.typed.type

end Polyloft
