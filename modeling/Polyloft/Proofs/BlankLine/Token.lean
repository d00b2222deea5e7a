import Polyloft.Proofs.Token.Placed
import Polyloft.Scope.Construct
import Polyloft.Token.Lexer

/-!
# Polyloft.Proofs.BlankLine.Token

The numbers of lines when one more line is put in, and tokens that move along. `movedLine k n` is
the number that line `n` has once a line stands before line `k`. A token that moves keeps everything
but its line, so that a sequence of tokens means what it meant (`Token.placeOnly_moved`), and a line
opens or closes the same blocks.
-/

namespace Polyloft

/-! ### Line numbers -/

/-- The number of line `n` once a line has been put before line `k`. -/
def movedLine (k n : Nat) : Nat :=
  if n < k then n else n + 1

theorem movedLine_of_lt {k n : Nat} (h : n < k) : movedLine k n = n :=
  if_pos h

theorem movedLine_of_le {k n : Nat} (h : k ≤ n) : movedLine k n = n + 1 :=
  if_neg (Nat.not_lt.2 h)

@[simp] theorem movedLine_lt_iff {k m n : Nat} : movedLine k m < movedLine k n ↔ m < n := by
  unfold movedLine
  split <;> split <;> omega

@[simp] theorem movedLine_inj {k m n : Nat} : movedLine k m = movedLine k n ↔ m = n := by
  unfold movedLine
  split <;> split <;> omega

theorem natCast_movedLine_beq (k m n : Nat) :
    ((movedLine k m : Int) == (movedLine k n : Int)) = ((m : Int) == (n : Int)) := by
  rw [Bool.eq_iff_iff, beq_iff_eq, beq_iff_eq, Int.natCast_inj, Int.natCast_inj, movedLine_inj]

/-! ### Tokens -/

/-- The token on the line that its line becomes. -/
def Token.moved (k : Nat) (t : Token) : Token :=
  { t with line := movedLine k t.line }

namespace Token

variable (k : Nat) (t : Token)

@[simp] theorem kind_moved : (t.moved k).kind = t.kind := rfl

@[simp] theorem text_moved : (t.moved k).text = t.text := rfl

@[simp] theorem isKeyword_moved (w : String) : (t.moved k).isKeyword w = t.isKeyword w := rfl

@[simp] theorem isKeywordIn_moved (ws : List String) :
    (t.moved k).isKeywordIn ws = t.isKeywordIn ws := rfl

@[simp] theorem isSymbol_moved (s : String) : (t.moved k).isSymbol s = t.isSymbol s := rfl

@[simp] theorem isSymbolIn_moved (ss : List String) :
    (t.moved k).isSymbolIn ss = t.isSymbolIn ss := rfl

@[simp] theorem startsUpper_moved : (t.moved k).startsUpper = t.startsUpper := rfl

/-- Only the place of a token changes. -/
theorem placeOnly_moved : PlaceOnly (moved k) :=
  ⟨kind_moved k, text_moved k⟩

end Token

section

variable (k : Nat)

/-- What is asked of the last token does not depend on its line. -/
theorem getLastD_map_moved (first : Token) (rest : List Token) :
    (rest.map (Token.moved k)).getLastD (first.moved k) = (rest.getLastD first).moved k := by
  rw [List.getLastD_eq_getLast?, List.getLastD_eq_getLast?, List.getLast?_map]
  cases rest.getLast? <;> rfl

theorem dropWhile_isDeclarationPrefix_moved (tokens : List Token) :
    (tokens.map (Token.moved k)).dropWhile Token.isDeclarationPrefix =
      (tokens.dropWhile Token.isDeclarationPrefix).map (Token.moved k) := by
  rw [List.dropWhile_map]
  rfl

theorem codeTokens_moved (tokens : List Token) :
    codeTokens (tokens.map (Token.moved k)) = (codeTokens tokens).map (Token.moved k) := by
  rw [codeTokens, codeTokens, List.filter_map]
  rfl

theorem any_moved (tokens : List Token) (p : Token → Bool)
    (hp : ∀ t : Token, p (t.moved k) = p t) :
    (tokens.map (Token.moved k)).any p = tokens.any p :=
  any_map_placed p hp tokens

theorem headAny_moved (tokens : List Token) (p : Token → Bool)
    (hp : ∀ t : Token, p (t.moved k) = p t) :
    (tokens.map (Token.moved k)).head?.any p = tokens.head?.any p :=
  headAny_map_placed p hp tokens

/-! ### Blocks -/

theorem trailingOpening?_moved (first : Token) (rest : List Token) :
    trailingOpening? (first.moved k) (rest.map (Token.moved k)) = trailingOpening? first rest := by
  have hparen := headAny_moved k rest (·.isSymbol "(") fun _ => rfl
  simp only [trailingOpening?, getLastD_map_moved, hparen, Token.kind_moved,
    Token.startsUpper_moved, Token.isSymbol_moved, Token.isKeyword_moved, Token.text_moved]

/-- A line opens the same block wherever it stands. -/
theorem opening?_moved (tokens : List Token) :
    opening? (tokens.map (Token.moved k)) = opening? tokens := by
  unfold opening?
  rw [dropWhile_isDeclarationPrefix_moved]
  cases tokens.dropWhile Token.isDeclarationPrefix with
  | nil => rfl
  | cons first rest =>
      have hname : (rest.map (Token.moved k)).head?.bind identifierText? =
          rest.head?.bind identifierText? := by
        cases rest <;> rfl
      simp only [List.map_cons, hname, getLastD_map_moved, trailingOpening?_moved,
        Token.isKeyword_moved, Token.isSymbol_moved, Token.kind_moved, Token.text_moved]

theorem isTerminator_moved (tokens : List Token) :
    isTerminator (tokens.map (Token.moved k)) = isTerminator tokens := by
  cases tokens with
  | nil => rfl
  | cons t ts => cases ts <;> rfl

theorem hasEnd_moved (tokens : List Token) :
    hasEnd (tokens.map (Token.moved k)) = hasEnd tokens :=
  any_moved k tokens _ fun _ => rfl

/-! ### Statements -/

theorem bracketBalance_moved (tokens : List Token) :
    bracketBalance (tokens.map (Token.moved k)) = bracketBalance tokens := by
  rw [bracketBalance, List.foldl_map]
  rfl

theorem trimReversed_moved (tokens : List Token) :
    trimReversed (tokens.map (Token.moved k)) = (trimReversed tokens).map (Token.moved k) := by
  induction tokens with
  | nil => rfl
  | cons t ts ih =>
      have hbalance := bracketBalance_moved k (t :: ts)
      rw [List.map_cons] at hbalance
      simp only [List.map_cons, trimReversed, hbalance, ih, Token.isKeyword_moved,
        Token.isSymbol_moved]
      split
      · rfl
      · split <;> rfl

theorem trimStatement_moved (tokens : List Token) :
    trimStatement (tokens.map (Token.moved k)) = (trimStatement tokens).map (Token.moved k) := by
  rw [trimStatement, trimStatement, ← List.map_reverse, trimReversed_moved, List.map_reverse]

/-! ### Lexing -/

/-- Lexing a line elsewhere gives the same tokens, moved. -/
theorem lexFrom_moved (line column : Nat) (cs : List Char) :
    lexFrom (movedLine k line) column cs =
      ((lexFrom line column cs).1.map (Token.moved k), (lexFrom line column cs).2) := by
  fun_induction lexFrom line column cs with
  | case1 column => simp [lexFrom]
  | case2 column c cs h ih => rw [lexFrom, if_pos h, ih]
  | case3 column c cs h lexeme token rest ih =>
      rw [lexFrom, if_neg h]
      dsimp only
      rw [ih]
      rfl

theorem lexLine_moved (text : List Char) (line : Nat) (inComment : Bool) :
    lexLine text (movedLine k line) inComment =
      ((lexLine text line inComment).1.map (Token.moved k), (lexLine text line inComment).2) := by
  unfold lexLine
  split
  · split
    · split <;> rfl
    · dsimp only
      rw [lexFrom_moved]
      rfl
  · exact lexFrom_moved k line 0 text

theorem line_of_mem_lexFrom {line column : Nat} {cs : List Char} {t : Token}
    (h : t ∈ (lexFrom line column cs).1) : t.line = line := by
  fun_induction lexFrom line column cs with
  | case1 column => simp at h
  | case2 column c cs hskip ih => exact ih h
  | case3 column c cs hskip lexeme token rest ih =>
      rcases List.mem_cons.1 h with rfl | h
      · rfl
      · exact ih h

/-- A token knows the line it was read from. -/
theorem line_of_mem_lexLine {text : List Char} {line : Nat} {inComment : Bool} {t : Token}
    (h : t ∈ (lexLine text line inComment).1) : t.line = line := by
  unfold lexLine at h
  split at h
  · split at h
    · split at h
      · simp at h
      · rw [List.mem_singleton.1 h]
    · rcases List.mem_cons.1 h with rfl | h
      · rfl
      · exact line_of_mem_lexFrom h
  · exact line_of_mem_lexFrom h

/-- An empty line has no tokens, and a comment that is open stays open. -/
theorem lexLine_nil (line : Nat) (inComment : Bool) :
    lexLine [] line inComment = ([], inComment) := by
  cases inComment
  · simp [lexLine, lexFrom]
  · rfl

end

end Polyloft
