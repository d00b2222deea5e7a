import Polyloft.Token.Brackets

/-!
# Polyloft.Proofs.Token.Placed

Tokens that are put elsewhere. A map of tokens that changes only where they stand
(`Token.PlaceOnly`) keeps everything that a sequence of tokens means: brackets have the same
partners, and the sequence is cut at the same places.
-/

namespace Polyloft

/-- The map keeps the category and the text of a token, and may change where it stands. -/
structure Token.PlaceOnly (g : Token → Token) : Prop where
  kind : ∀ t, (g t).kind = t.kind
  text : ∀ t, (g t).text = t.text

variable {g : Token → Token}

namespace Token.PlaceOnly

variable (hg : PlaceOnly g) (t : Token)
include hg

theorem isKeyword (w : String) : (g t).isKeyword w = t.isKeyword w := by
  rw [Token.isKeyword, Token.isKeyword, hg.kind, hg.text]

theorem isSymbol (s : String) : (g t).isSymbol s = t.isSymbol s := by
  rw [Token.isSymbol, Token.isSymbol, hg.kind, hg.text]

theorem isSymbolIn (ss : List String) : (g t).isSymbolIn ss = t.isSymbolIn ss := by
  rw [Token.isSymbolIn, Token.isSymbolIn, hg.kind, hg.text]

theorem isPunct (s : String) : (g t).isPunct s = t.isPunct s := by
  rw [Token.isPunct, Token.isPunct, hg.kind, hg.text]

theorem isOperatorIn (isOperator : String → Bool) :
    (g t).isOperatorIn isOperator = t.isOperatorIn isOperator := by
  rw [Token.isOperatorIn, Token.isOperatorIn, hg.isKeyword, hg.kind, hg.text]

theorem startsUpper : (g t).startsUpper = t.startsUpper := by
  rw [Token.startsUpper, Token.startsUpper, hg.text]

theorem depthAfter_map (depth : Nat) : depthAfter depth (g t) = depthAfter depth t := by
  rw [depthAfter, depthAfter, isOpening, isOpening, isClosing, isClosing, hg.kind,
    hg.text]

end Token.PlaceOnly

theorem any_map_placed (p : Token → Bool) (hp : ∀ t, p (g t) = p t) (tokens : List Token) :
    (tokens.map g).any p = tokens.any p := by
  rw [List.any_map]
  congr 1
  funext t
  exact hp t

theorem headAny_map_placed (p : Token → Bool) (hp : ∀ t, p (g t) = p t) (tokens : List Token) :
    (tokens.map g).head?.any p = tokens.head?.any p := by
  cases tokens with
  | nil => rfl
  | cons t ts => exact hp t

namespace Token.PlaceOnly

variable (hg : PlaceOnly g)
include hg

/-! ### Brackets -/

theorem closingIndex?_map (opening closing : String) (depth : Nat) (tokens : List Token) :
    closingIndex? opening closing depth (tokens.map g) =
      closingIndex? opening closing depth tokens := by
  induction tokens generalizing depth with
  | nil => rfl
  | cons t ts ih => simp only [List.map_cons, closingIndex?, ih, hg.isPunct]

theorem matching?_map (tokens : List Token) (start : Nat) :
    matching? (tokens.map g) start = matching? tokens start := by
  unfold matching?
  rw [← List.map_drop]
  cases tokens.drop start with
  | nil => rfl
  | cons t ts => simp only [List.map_cons, hg.closingIndex?_map, hg.text]

theorem angleIndex?_map (depth : Nat) (tokens : List Token) :
    angleIndex? depth (tokens.map g) = angleIndex? depth tokens := by
  induction tokens generalizing depth with
  | nil => rfl
  | cons t ts ih =>
      simp only [List.map_cons, angleIndex?, ih, hg.isSymbol, hg.isSymbolIn, hg.kind]

theorem matchingAngle?_map (tokens : List Token) (start : Nat) :
    matchingAngle? (tokens.map g) start = matchingAngle? tokens start := by
  unfold matchingAngle?
  rw [← List.map_drop]
  cases tokens.drop start with
  | nil => rfl
  | cons t ts => simp only [List.map_cons, hg.angleIndex?_map, hg.isSymbol]

theorem group?_map (tokens : List Token) :
    group? (tokens.map g) =
      (group? tokens).map fun p => (p.1.map g, p.2.map g) := by
  unfold group?
  rw [hg.matching?_map, Option.map_map]
  congr 1
  funext close
  simp [List.map_take, List.map_drop]

theorem stripParens_map (tokens : List Token) :
    stripParens (tokens.map g) = (stripParens tokens).map g := by
  fun_induction stripParens tokens with
  | case1 => simp [stripParens]
  | case2 t ts h ih =>
      have hplaced := hg.matching?_map (t :: ts) 0
      rw [List.map_cons, stripParens, ← List.map_cons, hplaced, List.length_map,
        hg.isSymbol, if_pos h, ← List.map_dropLast, ih]
  | case3 t ts h =>
      have hplaced := hg.matching?_map (t :: ts) 0
      rw [List.map_cons, stripParens, ← List.map_cons, hplaced, List.length_map,
        hg.isSymbol, if_neg h]

/-! ### Cutting -/

/-- Operators stand at the same places. -/
theorem splitTopFrom_map (isOperator : String → Bool) (index depth : Nat) (tokens : List Token) :
    splitTopFrom isOperator index depth (tokens.map g) =
      (splitTopFrom isOperator index depth tokens).map fun p => (p.1, g p.2) := by
  induction tokens generalizing index depth with
  | nil => rfl
  | cons t ts ih =>
      simp only [List.map_cons, splitTopFrom, hg.depthAfter_map, ih, hg.isOperatorIn]
      split <;> rfl

theorem partsFrom_map {isCut : Token → Bool} (hcut : ∀ t, isCut (g t) = isCut t) (depth : Nat)
    (tokens : List Token) :
    partsFrom isCut depth (tokens.map g) =
      (partsFrom isCut depth tokens).map (List.map g) := by
  induction tokens generalizing depth with
  | nil => rfl
  | cons t ts ih =>
      simp only [List.map_cons, partsFrom, hg.depthAfter_map, ih, hcut]
      split
      · rfl
      · cases partsFrom isCut (depthAfter depth t) ts <;> rfl

/-- The nonempty parts between cuts. -/
theorem nonemptyParts_map {isCut : Token → Bool} (hcut : ∀ t, isCut (g t) = isCut t)
    (tokens : List Token) :
    ((partsFrom isCut 0 (tokens.map g)).filter fun part => !part.isEmpty) =
      ((partsFrom isCut 0 tokens).filter fun part => !part.isEmpty).map (List.map g) := by
  rw [hg.partsFrom_map hcut, List.filter_map]
  congr 2
  funext part
  simp

theorem splitCommas_map (tokens : List Token) :
    splitCommas (tokens.map g) = (splitCommas tokens).map (List.map g) :=
  hg.nonemptyParts_map (fun t => hg.isSymbol t ",") tokens

theorem operands_map (isOperator : String → Bool) (tokens : List Token) :
    operands isOperator (tokens.map g) =
      (operands isOperator tokens).map (List.map g) :=
  hg.nonemptyParts_map (fun t => hg.isOperatorIn t isOperator) tokens

end Token.PlaceOnly

end Polyloft
