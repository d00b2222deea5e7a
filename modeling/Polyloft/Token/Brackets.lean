import Polyloft.Token

/-!
# Polyloft.Token.Brackets

Bracket structure of token sequences: the partner of an opening bracket, and cutting a sequence at
operators or commas outside all brackets. `matching?` counts brackets of one shape only; the
splitters keep one depth for all shapes, which never goes below zero.

The length lemmas say that the parts of a sequence are shorter than it; inference recurses on parts
and ends because of them. What is dropped behind the expression of a statement is told by
`exists_trimStatement_append`.
-/

namespace Polyloft

/-- The closing bracket that belongs to an opening one. -/
def closing? : String → Option String
  | "(" => some ")"
  | "[" => some "]"
  | "\x7b" => some "\x7d"
  | _ => none

namespace Token

/-- An opening bracket of any shape. -/
def isOpening (t : Token) : Bool :=
  t.kind == .punct && ["(", "[", "\x7b"].contains t.text

/-- A closing bracket of any shape. -/
def isClosing (t : Token) : Bool :=
  t.kind == .punct && [")", "]", "\x7d"].contains t.text

/-- The punctuation sign `s`. -/
def isPunct (t : Token) (s : String) : Bool :=
  t.kind == .punct && t.text == s

end Token

/-- The depth after a token. -/
def depthAfter (depth : Nat) (t : Token) : Nat :=
  if t.isOpening then depth + 1 else if t.isClosing then depth - 1 else depth

/-! ### Partners -/

/-- The position of the bracket `closing` that closes `depth` further brackets of its shape. -/
def closingIndex? (opening closing : String) : Nat → List Token → Option Nat
  | _, [] => none
  | depth, t :: ts =>
    if t.isPunct opening then (closingIndex? opening closing (depth + 1) ts).map (· + 1)
    else if t.isPunct closing then
      match depth with
      | 0 => some 0
      | depth + 1 => (closingIndex? opening closing depth ts).map (· + 1)
    else (closingIndex? opening closing depth ts).map (· + 1)

/-- The index of the bracket that closes the one at `start`. -/
def matching? (tokens : List Token) (start : Nat) : Option Nat :=
  match tokens.drop start with
  | [] => none
  | t :: ts =>
    (closing? t.text).bind fun closing =>
      (closingIndex? t.text closing 0 ts).map (start + 1 + ·)

/-- The position of the `>` that closes `depth` further angle brackets; only what may stand in
type arguments is passed over. -/
def angleIndex? : Nat → List Token → Option Nat
  | _, [] => none
  | depth, t :: ts =>
    if t.isSymbol "<" then (angleIndex? (depth + 1) ts).map (· + 1)
    else if t.isSymbol ">" then
      match depth with
      | 0 => some 0
      | depth + 1 => (angleIndex? depth ts).map (· + 1)
    else if t.kind == .identifier || t.isSymbolIn [",", "[", "]", "|", "?"] then
      (angleIndex? depth ts).map (· + 1)
    else none

/-- The index of the `>` that closes the `<` at `start`. -/
def matchingAngle? (tokens : List Token) (start : Nat) : Option Nat :=
  match tokens.drop start with
  | [] => none
  | t :: ts => if t.isSymbol "<" then (angleIndex? 0 ts).map (start + 1 + ·) else none

/-! ### Cutting -/

/-- An operator, or `instanceof`, that `isOperator` accepts. -/
def Token.isOperatorIn (t : Token) (isOperator : String → Bool) : Bool :=
  (t.kind == .operator || t.isKeyword "instanceof") && isOperator t.text

/-- Operators accepted by `isOperator` outside all brackets, with their positions counted from
`index`. -/
def splitTopFrom (isOperator : String → Bool) (index depth : Nat) : List Token → List (Nat × Token)
  | [] => []
  | t :: ts =>
    let rest := splitTopFrom isOperator (index + 1) (depthAfter depth t) ts
    if depth == 0 && t.isOperatorIn isOperator then (index, t) :: rest else rest

/-- Operators accepted by `isOperator` outside all brackets, with their positions. -/
def splitTop (isOperator : String → Bool) (tokens : List Token) : List (Nat × Token) :=
  splitTopFrom isOperator 0 0 tokens

/-- Puts a token in front of the first part. -/
def consPart (t : Token) : List (List Token) → List (List Token)
  | [] => [[t]]
  | part :: parts => (t :: part) :: parts

/-- The parts between the tokens outside all brackets at which `isCut` cuts, empty ones
included. -/
def partsFrom (isCut : Token → Bool) (depth : Nat) : List Token → List (List Token)
  | [] => [[]]
  | t :: ts =>
    let rest := partsFrom isCut (depthAfter depth t) ts
    if depth == 0 && isCut t then [] :: rest else consPart t rest

/-- The nonempty parts between the commas outside all brackets. -/
def splitCommas (tokens : List Token) : List (List Token) :=
  (partsFrom (·.isSymbol ",") 0 tokens).filter fun part => !part.isEmpty

/-- The nonempty operands of the operators accepted by `isOperator` outside all brackets. -/
def operands (isOperator : String → Bool) (tokens : List Token) : List (List Token) :=
  (partsFrom (·.isOperatorIn isOperator) 0 tokens).filter fun part => !part.isEmpty

theorem partsFrom_ne_nil (isCut : Token → Bool) (depth : Nat) (tokens : List Token) :
    partsFrom isCut depth tokens ≠ [] := by
  cases tokens with
  | nil => simp [partsFrom]
  | cons t ts =>
    rw [partsFrom]
    split
    · simp
    · cases partsFrom isCut (depthAfter depth t) ts <;> simp [consPart]

/-- A part and the cuts around it fit into the whole. -/
theorem length_add_le_of_mem_partsFrom {isCut : Token → Bool} {depth : Nat} {tokens : List Token}
    {part : List Token} (h : part ∈ partsFrom isCut depth tokens) :
    part.length + (partsFrom isCut depth tokens).length ≤ tokens.length + 1 := by
  induction tokens generalizing depth part with
  | nil => simp_all [partsFrom]
  | cons t ts ih =>
    obtain ⟨first, rest, hrest⟩ := List.exists_cons_of_ne_nil
      (partsFrom_ne_nil isCut (depthAfter depth t) ts)
    have ih := @ih (depthAfter depth t)
    rw [partsFrom] at h ⊢
    simp only [hrest, consPart] at h ih ⊢
    split at h
    · rename_i hc
      have := ih (List.mem_cons_self ..)
      rcases List.mem_cons.1 h with rfl | h
      · simp [hc] at this ⊢; omega
      · have := ih h
        simp [hc] at this ⊢; omega
    · rename_i hc
      rcases List.mem_cons.1 h with rfl | h
      · have := ih (List.mem_cons_self ..)
        simp [hc] at this ⊢; omega
      · have := ih (List.mem_cons_of_mem _ h)
        simp [hc] at this ⊢; omega

/-- Cuts are counted the same way by their positions and by the parts between them. -/
theorem length_partsFrom (isOperator : String → Bool) (index depth : Nat) (tokens : List Token) :
    (partsFrom (·.isOperatorIn isOperator) depth tokens).length =
      (splitTopFrom isOperator index depth tokens).length + 1 := by
  induction tokens generalizing index depth with
  | nil => rfl
  | cons t ts ih =>
    have ih := ih (index + 1) (depthAfter depth t)
    obtain ⟨first, rest, hrest⟩ := List.exists_cons_of_ne_nil
      (partsFrom_ne_nil (·.isOperatorIn isOperator) (depthAfter depth t) ts)
    rw [partsFrom, splitTopFrom]
    simp only [hrest, consPart] at ih ⊢
    split <;> simp_all

/-- The nonempty parts between commas are no longer than the whole. -/
theorem length_le_of_mem_splitCommas {tokens part : List Token} (h : part ∈ splitCommas tokens) :
    part.length ≤ tokens.length := by
  have hmem := (List.mem_filter.1 h).1
  have := length_add_le_of_mem_partsFrom hmem
  have := List.length_pos_iff.2 (partsFrom_ne_nil (·.isSymbol ",") 0 tokens)
  omega

/-- Operands are shorter than the whole. -/
theorem length_lt_of_mem_operands {isOperator : String → Bool} {tokens part : List Token}
    (h : part ∈ operands isOperator tokens) (hop : splitTop isOperator tokens ≠ []) :
    part.length < tokens.length := by
  have hmem := (List.mem_filter.1 h).1
  have hlen := length_add_le_of_mem_partsFrom hmem
  have hcount := length_partsFrom isOperator 0 0 tokens
  have := List.length_pos_iff.2 hop
  rw [splitTop] at this
  omega

/-! ### Groups -/

/-- A bracketed group at the start: what stands between the brackets, and what follows. -/
def group? (tokens : List Token) : Option (List Token × List Token) :=
  (matching? tokens 0).map fun close => ((tokens.take close).drop 1, tokens.drop (close + 1))

theorem group?_length {tokens inside rest : List Token} (h : group? tokens = some (inside, rest)) :
    inside.length < tokens.length ∧ rest.length < tokens.length := by
  obtain ⟨close, hclose, heq⟩ := Option.map_eq_some_iff.1 h
  cases tokens with
  | nil => simp [matching?] at hclose
  | cons t ts =>
    obtain ⟨rfl, rfl⟩ := Prod.mk.inj heq
    simp only [List.length_drop, List.length_take, List.length_cons]
    omega

/-- A sequence without the parentheses that stand around all of it. -/
def stripParens (tokens : List Token) : List Token :=
  match tokens with
  | [] => []
  | t :: ts =>
    if t.isSymbol "(" && matching? (t :: ts) 0 == some ts.length then stripParens ts.dropLast
    else t :: ts
termination_by tokens.length
decreasing_by simp only [List.length_dropLast, List.length_cons]; omega

theorem length_stripParens_le (tokens : List Token) :
    (stripParens tokens).length ≤ tokens.length := by
  fun_induction stripParens tokens with
  | case1 => simp
  | case2 t ts h ih => simp at ih ⊢; omega
  | case3 => simp

/-! ### Balance -/

/-- How many more brackets open than close. -/
def bracketBalance (tokens : List Token) : Int :=
  tokens.foldl
    (fun n t =>
      if t.isSymbolIn ["(", "[", "\x7b"] then n + 1
      else if t.isSymbolIn [")", "]", "\x7d"] then n - 1
      else n) 0

/-- The expression of a statement, given its tokens in reverse: a final `end`, semicolons and
closing parentheses without a partner are dropped. -/
def trimReversed : List Token → List Token
  | [] => []
  | t :: ts =>
    if t.isKeyword "end" || t.isSymbol ";" then trimReversed ts
    else if t.isSymbol ")" && bracketBalance (t :: ts) != 0 then trimReversed ts
    else t :: ts

/-- The expression of a statement without a final `end`, semicolons and closing parentheses that
have no partner. -/
def trimStatement (tokens : List Token) : List Token :=
  (trimReversed tokens.reverse).reverse

/-- The count adds the same to every start. -/
private theorem foldl_eq_add_bracketBalance (start : Int) (tokens : List Token) :
    tokens.foldl
      (fun n t =>
        if t.isSymbolIn ["(", "[", "\x7b"] then n + 1
        else if t.isSymbolIn [")", "]", "\x7d"] then n - 1
        else n) start = start + bracketBalance tokens := by
  induction tokens generalizing start with
  | nil => simp [bracketBalance]
  | cons t ts ih =>
    rw [bracketBalance, List.foldl_cons, List.foldl_cons, ih, ih]
    grind

theorem bracketBalance_cons (t : Token) (ts : List Token) :
    bracketBalance (t :: ts) = bracketBalance [t] + bracketBalance ts := by
  rw [bracketBalance, List.foldl_cons, foldl_eq_add_bracketBalance]
  rfl

theorem bracketBalance_append (ts us : List Token) :
    bracketBalance (ts ++ us) = bracketBalance ts + bracketBalance us := by
  induction ts with
  | nil => simp [bracketBalance]
  | cons t ts ih =>
    rw [List.cons_append, bracketBalance_cons, bracketBalance_cons t ts, ih, Int.add_assoc]

theorem bracketBalance_reverse (tokens : List Token) :
    bracketBalance tokens.reverse = bracketBalance tokens := by
  induction tokens with
  | nil => rfl
  | cons t ts ih =>
    rw [List.reverse_cons, bracketBalance_append, bracketBalance_cons t ts, ih, Int.add_comm]

/-- The last token is no part of the expression that a statement ends in: it is an `end` or a
semicolon, or a closing parenthesis while brackets are out of balance. -/
def endsBehind (tokens : List Token) : Bool :=
  tokens.getLast?.any fun last =>
    last.isKeyword "end" || last.isSymbol ";" || (last.isSymbol ")" && bracketBalance tokens != 0)

/-- One turn of the loop: the last token is judged by the whole of what is left. -/
theorem trimStatement_concat (ts : List Token) (last : Token) :
    trimStatement (ts ++ [last]) =
      if endsBehind (ts ++ [last]) then trimStatement ts else ts ++ [last] := by
  have hbalance : bracketBalance (last :: ts.reverse) = bracketBalance (ts ++ [last]) := by
    rw [← bracketBalance_reverse (ts ++ [last]), List.reverse_concat]
  rw [trimStatement, List.reverse_concat, trimReversed, hbalance, endsBehind,
    List.getLast?_concat, Option.any_some, trimStatement]
  cases last.isKeyword "end" || last.isSymbol ";" with
  | true => simp
  | false => cases last.isSymbol ")" && bracketBalance (ts ++ [last]) != 0 <;> simp

/-- Only trailing tokens are dropped, each because it ends behind the expression together with what
stands before it, and dropping stops as soon as a token does not. -/
theorem exists_trimStatement_append (tokens : List Token) :
    ∃ dropped, trimStatement tokens ++ dropped = tokens ∧
      endsBehind (trimStatement tokens) = false ∧
      ∀ n < dropped.length, endsBehind (trimStatement tokens ++ dropped.take (n + 1)) = true := by
  -- The loop takes tokens from the end, so the induction is on the tokens read backwards.
  rw [← List.reverse_reverse tokens]
  induction tokens.reverse with
  | nil => exact ⟨[], rfl, rfl, nofun⟩
  | cons last rev ih =>
    rw [List.reverse_cons, trimStatement_concat]
    cases hends : endsBehind (rev.reverse ++ [last]) with
    | false => exact ⟨[], by simp, by simpa using hends, nofun⟩
    | true =>
      obtain ⟨dropped, happend, hstop, hdropped⟩ := ih
      refine ⟨dropped ++ [last], ?_, hstop, fun n hn => ?_⟩
      · rw [if_pos rfl, ← List.append_assoc, happend]
      · rw [if_pos rfl]
        rcases Nat.lt_or_ge n dropped.length with h | h
        · rw [List.take_append_of_le_length h]
          exact hdropped n h
        · -- The token that was dropped first has everything in front of it.
          have hall : (dropped ++ [last]).length ≤ n + 1 := by
            rw [List.length_append, List.length_singleton]
            omega
          rw [List.take_of_length_le hall, ← List.append_assoc, happend, hends]

end Polyloft
