import Polyloft.Token.Brackets

/-!
# Polyloft.Proofs.Token.Bracketed

Token sequences in which every bracket has its partner (`Bracketed`). In such a sequence the search
for a partner passes over whole groups and ends where the group ends (`group?_of_pairs`), the depth
at the end is the depth at the start (`Nested.foldl_depthAfter`), and cutting at top level takes
sequences apart that were joined by a cut (`partsFrom_append_cut`). A sequence without a cut outside
its groups (`Uncut`) is one part.

The search and the depth count punctuation signs only, so what they need of a sequence is less than
`Bracketed`: that its opening and closing punctuation signs are partners (`Nested`).
-/

namespace Polyloft

namespace Token

/-- A bracket of any shape. -/
def isBracket (t : Token) : Bool :=
  t.isSymbolIn ["(", "[", "\x7b", ")", "]", "\x7d"]

/-- A punctuation sign that opens or closes a group; no operator is one, whatever its text. -/
def isDelimiter (t : Token) : Bool :=
  t.isOpening || t.isClosing

/-- An opening bracket and the closing one of its shape. -/
structure Pairs (o c : Token) : Prop where
  isOpening : o.isOpening = true
  kind_eq : c.kind = .punct
  closing : closing? o.text = some c.text

variable {t o c : Token}

theorem isSymbol_eq_false_of_kind (h : t.kind ≠ .operator ∧ t.kind ≠ .punct) (s : String) :
    t.isSymbol s = false := by
  simp [isSymbol, h.1, h.2]

theorem isDelimiter_of_isBracket (h : t.isBracket = false) : t.isDelimiter = false := by
  have hno : ∀ ss : List String, ss ⊆ ["(", "[", "\x7b", ")", "]", "\x7d"] →
      (t.kind == .punct && ss.contains t.text) = false := by
    intro ss hss
    rw [Bool.eq_false_iff]
    intro hmem
    rw [Bool.and_eq_true, beq_iff_eq, List.contains_iff_mem] at hmem
    refine Bool.eq_false_iff.1 h ?_
    rw [isBracket, isSymbolIn, hmem.1, List.contains_iff_mem.2 (hss hmem.2)]
    rfl
  rw [isDelimiter, isOpening, isClosing, hno _ (by simp), hno _ (by simp)]
  rfl

theorem isPunct_of_isDelimiter (h : t.isDelimiter = false) {s : String}
    (hs : s ∈ ["(", "[", "\x7b", ")", "]", "\x7d"]) : t.isPunct s = false := by
  rw [Bool.eq_false_iff]
  intro hpunct
  rw [isPunct, Bool.and_eq_true, beq_iff_eq, beq_iff_eq] at hpunct
  refine Bool.eq_false_iff.1 h ?_
  rw [isDelimiter, isOpening, isClosing, hpunct.1, hpunct.2, ← Bool.and_or_distrib_left,
    beq_self_eq_true, Bool.true_and, Bool.or_eq_true, List.contains_iff_mem, List.contains_iff_mem,
    ← List.mem_append]
  exact hs

theorem isBracket_of_text (h : t.text ∉ ["(", "[", "\x7b", ")", "]", "\x7d"]) :
    t.isBracket = false := by
  rw [isBracket, isSymbolIn, Bool.and_eq_false_iff]
  exact .inr (by simpa using h)

theorem isBracket_of_kind (h : t.kind ≠ .operator ∧ t.kind ≠ .punct) : t.isBracket = false := by
  simp [isBracket, isSymbolIn, h.1, h.2]

theorem depthAfter_of_isDelimiter (h : t.isDelimiter = false) (depth : Nat) :
    depthAfter depth t = depth := by
  rw [isDelimiter, Bool.or_eq_false_iff] at h
  rw [depthAfter, h.1, h.2]
  rfl

theorem depthAfter_of_isBracket (h : t.isBracket = false) (depth : Nat) :
    depthAfter depth t = depth :=
  depthAfter_of_isDelimiter (isDelimiter_of_isBracket h) depth

namespace Pairs

theorem depthAfter_opening (h : o.Pairs c) (depth : Nat) : depthAfter depth o = depth + 1 := by
  rw [depthAfter, if_pos h.isOpening]

theorem texts (h : o.Pairs c) : o.kind = .punct ∧
    (o.text = "(" ∧ c.text = ")" ∨ o.text = "[" ∧ c.text = "]" ∨
      o.text = "\x7b" ∧ c.text = "\x7d") := by
  have hopening := h.isOpening
  have hclosing := h.closing
  rw [Token.isOpening, Bool.and_eq_true, beq_iff_eq, List.contains_iff_mem] at hopening
  refine ⟨hopening.1, ?_⟩
  have htext : o.text = "(" ∨ o.text = "[" ∨ o.text = "\x7b" := by simpa using hopening.2
  rcases htext with htext | htext | htext <;> rw [htext] at hclosing <;>
    simp [htext, (Option.some.inj hclosing).symm]

theorem depthAfter_closing (h : o.Pairs c) (depth : Nat) : depthAfter (depth + 1) c = depth := by
  obtain ⟨-, ⟨-, hc⟩ | ⟨-, hc⟩ | ⟨-, hc⟩⟩ := h.texts <;>
    simp [depthAfter, Token.isOpening, Token.isClosing, h.kind_eq, hc]

end Pairs

end Token

/-! ### Sequences of groups -/

/-- Every bracket has its partner. -/
inductive Bracketed : List Token → Prop where
  | nil : Bracketed []
  | plain {t : Token} {ts : List Token} (hbracket : t.isBracket = false) (h : Bracketed ts) :
      Bracketed (t :: ts)
  | group {o c : Token} {inside rest : List Token} (hpair : o.Pairs c) (hinside : Bracketed inside)
      (hrest : Bracketed rest) : Bracketed (o :: (inside ++ c :: rest))

/-- Every opening or closing punctuation sign has its partner. -/
inductive Nested : List Token → Prop where
  | nil : Nested []
  | plain {t : Token} {ts : List Token} (ht : t.isDelimiter = false) (h : Nested ts) :
      Nested (t :: ts)
  | group {o c : Token} {inside rest : List Token} (hpair : o.Pairs c) (hinside : Nested inside)
      (hrest : Nested rest) : Nested (o :: (inside ++ c :: rest))

/-- Every bracket has its partner, and outside of all groups nothing is cut. -/
inductive Uncut (isCut : Token → Bool) : List Token → Prop where
  | nil : Uncut isCut []
  | plain {t : Token} {ts : List Token} (hbracket : t.isBracket = false) (hcut : isCut t = false)
      (h : Uncut isCut ts) : Uncut isCut (t :: ts)
  | group {o c : Token} {inside rest : List Token} (hpair : o.Pairs c) (hcut : isCut o = false)
      (hinside : Bracketed inside) (hrest : Uncut isCut rest) :
      Uncut isCut (o :: (inside ++ c :: rest))

variable {isCut : Token → Bool} {o c t : Token} {ts us inside rest : List Token}

theorem Bracketed.append (h : Bracketed ts) (hus : Bracketed us) : Bracketed (ts ++ us) := by
  induction h with
  | nil => exact hus
  | plain hbracket _ ih => exact .plain hbracket ih
  | @group o c inside rest hpair hinside _ _ ih =>
      rw [List.cons_append, List.append_assoc, List.cons_append]
      exact .group hpair hinside ih

theorem Bracketed.nested (h : Bracketed ts) : Nested ts := by
  induction h with
  | nil => exact .nil
  | plain hbracket _ ih => exact .plain (Token.isDelimiter_of_isBracket hbracket) ih
  | group hpair _ _ ihinside ih => exact .group hpair ihinside ih

namespace Uncut

theorem bracketed (h : Uncut isCut ts) : Bracketed ts := by
  induction h with
  | nil => exact .nil
  | plain hbracket _ _ ih => exact .plain hbracket ih
  | group hpair _ hinside _ ih => exact .group hpair hinside ih

theorem append (h : Uncut isCut ts) (hus : Uncut isCut us) : Uncut isCut (ts ++ us) := by
  induction h with
  | nil => exact hus
  | plain hbracket hcut _ ih => exact .plain hbracket hcut ih
  | @group o c inside rest hpair hcut hinside _ ih =>
      rw [List.cons_append, List.append_assoc, List.cons_append]
      exact .group hpair hcut hinside ih

end Uncut

/-- What no token cuts has no cut. -/
theorem Bracketed.uncut (h : Bracketed ts) (hcut : ∀ t ∈ ts, isCut t = false) :
    Uncut isCut ts := by
  induction h with
  | nil => exact .nil
  | plain hbracket _ ih =>
      rw [List.forall_mem_cons] at hcut
      exact .plain hbracket hcut.1 (ih hcut.2)
  | group hpair hinside _ _ ih =>
      rw [List.forall_mem_cons, List.forall_mem_append, List.forall_mem_cons] at hcut
      exact .group hpair hcut.1 hinside (ih hcut.2.2.2)

/-! ### Partners -/

theorem closingIndex?_cons_of_other {opening closing : String}
    (hopening : t.isPunct opening = false) (hclosing : t.isPunct closing = false) (depth : Nat)
    (ts : List Token) :
    closingIndex? opening closing depth (t :: ts) =
      (closingIndex? opening closing depth ts).map (· + 1) := by
  simp [closingIndex?.eq_def opening closing depth (t :: ts), hopening, hclosing]

/-- Brackets of one shape are counted. -/
theorem Token.Pairs.closingIndex?_opening (h : o.Pairs c) (depth : Nat) (ts : List Token) :
    closingIndex? o.text c.text depth (o :: ts) =
      (closingIndex? o.text c.text (depth + 1) ts).map (· + 1) := by
  have hself : o.isPunct o.text = true := by simp [isPunct, h.texts.1]
  simp [closingIndex?.eq_def o.text c.text depth (o :: ts), hself]

theorem Token.Pairs.closingIndex?_closing (h : o.Pairs c) (depth : Nat) (ts : List Token) :
    closingIndex? o.text c.text depth (c :: ts) =
      match depth with
      | 0 => some 0
      | depth + 1 => (closingIndex? o.text c.text depth ts).map (· + 1) := by
  have hne : c.isPunct o.text = false := by
    obtain ⟨-, ⟨ho, hc⟩ | ⟨ho, hc⟩ | ⟨ho, hc⟩⟩ := h.texts <;> simp [isPunct, ho, hc]
  have hself : c.isPunct c.text = true := by simp [isPunct, h.kind_eq]
  cases depth <;> simp [closingIndex?, hne, hself]

/-- Brackets of another shape are passed over. -/
theorem Token.Pairs.isPunct_of_ne {o' c' : Token} (h : o.Pairs c) (h' : o'.Pairs c')
    (hne : o'.text ≠ o.text) :
    (o'.isPunct o.text = false ∧ o'.isPunct c.text = false) ∧
      c'.isPunct o.text = false ∧ c'.isPunct c.text = false := by
  obtain ⟨-, ⟨ho, hc⟩ | ⟨ho, hc⟩ | ⟨ho, hc⟩⟩ := h.texts <;>
    obtain ⟨-, ⟨ho', hc'⟩ | ⟨ho', hc'⟩ | ⟨ho', hc'⟩⟩ := h'.texts <;>
      simp_all [isPunct]

/-- The search for a partner passes over a nested sequence. -/
theorem Nested.closingIndex?_append (h : Nested ts) (hpair : o.Pairs c) (depth : Nat)
    (rest : List Token) :
    closingIndex? o.text c.text depth (ts ++ rest) =
      (closingIndex? o.text c.text depth rest).map (· + ts.length) := by
  induction h generalizing depth rest with
  | nil => simp
  | @plain t ts ht _ ih =>
      have htexts : o.text ∈ ["(", "[", "\x7b", ")", "]", "\x7d"] ∧
          c.text ∈ ["(", "[", "\x7b", ")", "]", "\x7d"] := by
        obtain ⟨-, ⟨ho, hc⟩ | ⟨ho, hc⟩ | ⟨ho, hc⟩⟩ := hpair.texts <;> simp [ho, hc]
      rw [List.cons_append, closingIndex?_cons_of_other
        (Token.isPunct_of_isDelimiter ht htexts.1)
        (Token.isPunct_of_isDelimiter ht htexts.2), ih, Option.map_map]
      rfl
  | @group o' c' inside more hpair' _ _ ihinside ih =>
      rw [List.cons_append, List.append_assoc, List.cons_append]
      by_cases hsame : o'.text = o.text
      · -- The group has the shape that is counted: one more open, then one more closed.
        have hclosing : c'.text = c.text := by
          have := hpair'.closing
          rw [hsame, hpair.closing] at this
          exact (Option.some.inj this).symm
        rw [← hsame, ← hclosing, hpair'.closingIndex?_opening, hsame, hclosing, ihinside, ← hsame,
          ← hclosing, hpair'.closingIndex?_closing, hsame, hclosing]
        dsimp only
        rw [ih]
        simp only [Option.map_map, List.length_cons, List.length_append]
        congr 1
        funext n
        simp only [Function.comp_apply]
        omega
      · obtain ⟨⟨ho, hc⟩, ho', hc'⟩ := hpair.isPunct_of_ne hpair' hsame
        rw [closingIndex?_cons_of_other ho hc, ihinside, closingIndex?_cons_of_other ho' hc', ih]
        simp only [Option.map_map, List.length_cons, List.length_append]
        congr 1
        funext n
        simp only [Function.comp_apply]
        omega

theorem matching?_of_pairs (hpair : o.Pairs c) (hinside : Nested inside) (rest : List Token) :
    matching? (o :: (inside ++ c :: rest)) 0 = some (inside.length + 1) := by
  rw [matching?, List.drop_zero]
  dsimp only
  rw [hpair.closing, Option.bind_some, hinside.closingIndex?_append hpair,
    hpair.closingIndex?_closing]
  simp [Nat.add_comm]

/-- A group at the start is found whole. -/
theorem group?_of_pairs (hpair : o.Pairs c) (hinside : Bracketed inside) (rest : List Token) :
    group? (o :: (inside ++ c :: rest)) = some (inside, rest) := by
  rw [group?, matching?_of_pairs hpair hinside.nested, Option.map_some, List.take_succ_cons,
    List.take_left, List.drop_succ_cons, List.drop_zero, List.drop_succ_cons,
    ← List.drop_drop, List.drop_left]
  rfl

/-! ### Parentheses around the whole -/

theorem stripParens_of_isSymbol (h : t.isSymbol "(" = false) (ts : List Token) :
    stripParens (t :: ts) = t :: ts := by
  rw [stripParens, h]
  rfl

theorem stripParens_of_pairs (hpair : o.Pairs c) (ho : o.text = "(") (hinside : Bracketed inside) :
    stripParens (o :: (inside ++ [c])) = stripParens inside := by
  rw [stripParens, matching?_of_pairs hpair hinside.nested, if_pos, List.dropLast_concat]
  simp [Token.isSymbol, hpair.texts.1, ho]

/-- Parentheses at the start that close before the end stay. -/
theorem Bracketed.stripParens_append (h : Bracketed ts) (hts : ts ≠ []) (hus : us ≠ []) :
    stripParens (ts ++ us) = ts ++ us := by
  cases h with
  | nil => exact absurd rfl hts
  | @plain t ts hbracket _ =>
      refine stripParens_of_isSymbol ?_ (ts ++ us)
      rw [Bool.eq_false_iff]
      intro hsymbol
      rw [Token.isSymbol, Bool.and_eq_true, beq_iff_eq] at hsymbol
      refine Bool.eq_false_iff.1 hbracket ?_
      rw [Token.isBracket, Token.isSymbolIn, hsymbol.1, hsymbol.2]
      rfl
  | @group o c inside rest hpair hinside hrest =>
      rw [List.cons_append, List.append_assoc, List.cons_append, stripParens,
        matching?_of_pairs hpair hinside.nested, if_neg]
      have hlength := List.length_pos_iff.2 hus
      simp only [List.length_append, List.length_cons, Bool.and_eq_true, beq_iff_eq,
        Option.some.injEq]
      omega

/-! ### Depth -/

theorem Nested.foldl_depthAfter (h : Nested ts) (depth : Nat) :
    ts.foldl depthAfter depth = depth := by
  induction h generalizing depth with
  | nil => rfl
  | plain ht _ ih => rw [List.foldl_cons, Token.depthAfter_of_isDelimiter ht, ih]
  | group hpair _ _ ihinside ih =>
      rw [List.foldl_cons, List.foldl_append, List.foldl_cons, hpair.depthAfter_opening, ihinside,
        hpair.depthAfter_closing, ih]

/-! ### Cutting -/

theorem consPart_append (t : Token) {parts : List (List Token)} (hne : parts ≠ [])
    (more : List (List Token)) : consPart t (parts ++ more) = consPart t parts ++ more := by
  obtain ⟨part, parts, rfl⟩ := List.exists_cons_of_ne_nil hne
  rfl

/-- What is joined by a cut is taken apart there, if all brackets before it are closed. -/
theorem partsFrom_append_cut {depth : Nat} (hdepth : ts.foldl depthAfter depth = 0)
    (hbracket : c.isBracket = false) (hcut : isCut c = true) (rest : List Token) :
    partsFrom isCut depth (ts ++ c :: rest) =
      partsFrom isCut depth ts ++ partsFrom isCut 0 rest := by
  induction ts generalizing depth with
  | nil =>
      obtain rfl : depth = 0 := hdepth
      simp [partsFrom, hcut, Token.depthAfter_of_isBracket hbracket]
  | cons t ts ih =>
      rw [List.cons_append, partsFrom, partsFrom, ih hdepth]
      split
      · rfl
      · exact consPart_append t (partsFrom_ne_nil isCut _ ts) _

/-- Nothing is cut inside of groups. -/
theorem Bracketed.partsFrom_append (h : Bracketed ts) (isCut : Token → Bool) (depth : Nat)
    (rest : List Token) :
    partsFrom isCut (depth + 1) (ts ++ rest) =
      ts.foldr consPart (partsFrom isCut (depth + 1) rest) := by
  induction h generalizing depth rest with
  | nil => rfl
  | plain hbracket _ ih =>
      rw [List.cons_append, partsFrom, Token.depthAfter_of_isBracket hbracket, ih]
      rfl
  | group hpair _ _ ihinside ih =>
      rw [List.cons_append, List.append_assoc, List.cons_append, partsFrom,
        hpair.depthAfter_opening, ihinside, partsFrom, hpair.depthAfter_closing, ih]
      simp

theorem Uncut.partsFrom_append (h : Uncut isCut ts) (rest : List Token) :
    partsFrom isCut 0 (ts ++ rest) = ts.foldr consPart (partsFrom isCut 0 rest) := by
  induction h generalizing rest with
  | nil => rfl
  | plain hbracket hcut _ ih =>
      rw [List.cons_append, partsFrom, Token.depthAfter_of_isBracket hbracket, ih, hcut]
      rfl
  | @group o c inside more hpair hcut hinside _ ih =>
      rw [List.cons_append, List.append_assoc, List.cons_append, partsFrom,
        hpair.depthAfter_opening, hinside.partsFrom_append, partsFrom, hpair.depthAfter_closing, ih,
        hcut]
      simp

/-- What has no cut is one part. -/
theorem Uncut.partsFrom_eq (h : Uncut isCut ts) : partsFrom isCut 0 ts = [ts] := by
  have hfoldr : ∀ ts : List Token, ts.foldr consPart [[]] = [ts] := by
    intro ts
    induction ts with
    | nil => rfl
    | cons t ts ih => rw [List.foldr_cons, ih, consPart]
  rw [← List.append_nil ts, h.partsFrom_append, partsFrom, hfoldr, List.append_nil]

/-- The nonempty parts between cuts outside all groups. -/
def cutParts (isCut : Token → Bool) (ts : List Token) : List (List Token) :=
  (partsFrom isCut 0 ts).filter fun part => !part.isEmpty

theorem splitCommas_eq (ts : List Token) : splitCommas ts = cutParts (·.isSymbol ",") ts := rfl

theorem operands_eq (isOperator : String → Bool) (ts : List Token) :
    operands isOperator ts = cutParts (·.isOperatorIn isOperator) ts := rfl

theorem Bracketed.cutParts_append_cut (h : Bracketed ts) (isCut : Token → Bool)
    (hbracket : c.isBracket = false) (hcut : isCut c = true) (rest : List Token) :
    cutParts isCut (ts ++ c :: rest) = cutParts isCut ts ++ cutParts isCut rest := by
  rw [cutParts, partsFrom_append_cut (h.nested.foldl_depthAfter 0) hbracket hcut,
    List.filter_append]
  rfl

theorem Uncut.cutParts_eq (h : Uncut isCut ts) (hne : ts ≠ []) : cutParts isCut ts = [ts] := by
  rw [cutParts, h.partsFrom_eq, List.filter_cons_of_pos (by simpa using hne), List.filter_nil]

/-! ### Operators outside of groups -/

theorem splitTop_eq_nil_iff {isOperator : String → Bool} :
    splitTop isOperator ts = [] ↔ (partsFrom (·.isOperatorIn isOperator) 0 ts).length = 1 := by
  rw [length_partsFrom isOperator 0 0, splitTop, Nat.add_eq_right, List.length_eq_zero_iff]

theorem Bracketed.splitTop_ne_nil {isOperator : String → Bool} (h : Bracketed ts)
    (hbracket : c.isBracket = false) (hcut : c.isOperatorIn isOperator = true)
    (rest : List Token) : splitTop isOperator (ts ++ c :: rest) ≠ [] := by
  have hbefore := List.length_pos_iff.2 (partsFrom_ne_nil (·.isOperatorIn isOperator) 0 ts)
  have hbehind := List.length_pos_iff.2 (partsFrom_ne_nil (·.isOperatorIn isOperator) 0 rest)
  rw [Ne, splitTop_eq_nil_iff, partsFrom_append_cut (h.nested.foldl_depthAfter 0) hbracket hcut,
    List.length_append]
  omega

theorem splitTop_eq_nil {isOperator : String → Bool}
    (h : ∀ t ∈ ts, t.isOperatorIn isOperator = false) : splitTop isOperator ts = [] := by
  have hfrom (index depth : Nat) : splitTopFrom isOperator index depth ts = [] := by
    induction ts generalizing index depth with
    | nil => rfl
    | cons t ts ih =>
        rw [List.forall_mem_cons] at h
        rw [splitTopFrom, h.1, Bool.and_false, ih h.2]
        rfl
  exact hfrom 0 0

end Polyloft
