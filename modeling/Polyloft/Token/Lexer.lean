import Polyloft.Text.Blank
import Polyloft.Text.Digit
import Polyloft.Text.Word
import Polyloft.Token

/-!
# Polyloft.Token.Lexer

From text to tokens, one line at a time. A block comment may run over several lines, so lexing a
line takes whether a comment is open where it starts and returns whether one is open where it
ends. Lexing never fails: a character that starts nothing becomes a token of its own category,
and a string literal that meets the end of its line is marked unterminated.

`Lexeme.at` looks at the head of the text and says how far the token there reaches; `lexFrom`
cuts the line into tokens with it. A lexeme always covers the first character, so the rest of the
line is shorter and the recursion ends.
-/

namespace Polyloft

open Polyloft.Text

/-! ### Lexemes -/

/-- What stands at the head of a text: its category, and how many characters belong to it besides
the first. `opens` marks a block comment that is still open at the end of the line. -/
structure Lexeme where
  kind : TokenKind
  tail : Nat
  terminated : Bool := true
  opens : Bool := false
deriving DecidableEq, Repr

/-- The number of characters up to and including the closing quote, given the text after the
opening one. A backslash takes the next character along. -/
def closingQuote? (quote : Char) : List Char → Option Nat
  | [] => none
  | ['\\'] => none
  | '\\' :: _ :: cs => (closingQuote? quote cs).map (· + 2)
  | c :: cs => if c = quote then some 1 else (closingQuote? quote cs).map (· + 1)

/-- The number of characters up to and including the next `*/`. -/
def commentClose? : List Char → Option Nat
  | '*' :: '/' :: _ => some 2
  | _ :: cs => (commentClose? cs).map (· + 1)
  | [] => none

/-- The operators, longer ones before those they start with. -/
def operators : List String :=
  ["...", "..", "=>", "->", "==", "!=", "<=", ">=", "&&", "||", "+=", "-=", "*=", "/=", "%=",
    "++", "--", "+", "-", "*", "/", "%", "=", "<", ">", "!", "&", "|", "^", "~", "?", ":", "."]

/-- The operator at the head of the text. -/
def operatorAt? (cs : List Char) : Option String :=
  operators.find? fun op => op.toList.isPrefixOf cs

/-- Brackets, comma and semicolon. -/
def isPunctuation (c : Char) : Bool :=
  c ∈ ['(', ')', '[', ']', '{', '}', ',', ';']

/-- A number that starts with the digit before `cs`: a fraction needs digits on both sides of
its point. -/
def Lexeme.number (cs : List Char) : Lexeme :=
  let whole := (cs.takeWhile isDecimal).length
  match cs.dropWhile isDecimal with
  | '.' :: d :: ds =>
    if isDecimal d then ⟨.float, whole + 2 + (ds.takeWhile isDecimal).length, true, false⟩
    else ⟨.int, whole, true, false⟩
  | _ => ⟨.int, whole, true, false⟩

/-- The name `c :: cs` starts with, as keyword or identifier. -/
def Lexeme.name (c : Char) (cs : List Char) : Lexeme :=
  let tail := cs.takeWhile isWord
  let kind := if keywords.contains (String.ofList (c :: tail)) then .keyword else .identifier
  ⟨kind, tail.length, true, false⟩

/-- An operator, a punctuation sign or a character that starts nothing. -/
def Lexeme.sign (c : Char) (cs : List Char) : Lexeme :=
  match operatorAt? (c :: cs) with
  | some op => ⟨.operator, op.length - 1, true, false⟩
  | none => if isPunctuation c then ⟨.punct, 0, true, false⟩ else ⟨.unknown, 0, true, false⟩

/-- The lexeme at the head of `c :: cs`, where `c` is not skipped. -/
def Lexeme.at (c : Char) (cs : List Char) : Lexeme :=
  match c, cs with
  | '/', '/' :: _ => ⟨.comment, cs.length, true, false⟩
  | '/', '*' :: inner =>
    match commentClose? inner with
    | some n => ⟨.comment, n + 1, true, false⟩
    | none => ⟨.comment, cs.length, true, true⟩
  | '@', a :: rest =>
    if isNameStart a then ⟨.marker, 1 + (rest.takeWhile isWord).length, true, false⟩
    else ⟨.unknown, 0, true, false⟩
  | _, _ =>
    if c = '"' ∨ c = '\'' then
      match closingQuote? c cs with
      | some n => ⟨.string, n, true, false⟩
      | none => ⟨.string, cs.length, false, false⟩
    else if isDecimal c then Lexeme.number cs
    else if isNameStart c then Lexeme.name c cs
    else Lexeme.sign c cs

/-! ### Lines -/

/-- Characters that separate tokens within a line. -/
def isSkipped (c : Char) : Bool :=
  c == ' ' || c == '\t' || c == '\r' || c == '\x0c' || c == '\x0b'

/-- The tokens of the text that starts at `column`, outside any comment, and whether a block
comment is open where it ends. -/
def lexFrom (line column : Nat) : List Char → List Token × Bool
  | [] => ([], false)
  | c :: cs =>
    if isSkipped c then lexFrom line (column + 1) cs
    else
      let lexeme := Lexeme.at c cs
      let token : Token :=
        ⟨lexeme.kind, String.ofList (c :: cs.take lexeme.tail), line, column, lexeme.terminated⟩
      let rest := lexFrom line (column + 1 + lexeme.tail) (cs.drop lexeme.tail)
      (token :: rest.1, lexeme.opens || rest.2)
termination_by cs => cs.length
decreasing_by
  · simp
  · simp only [List.length_drop, List.length_cons]; omega

/-- The tokens of one line, and whether a block comment is open where it ends. A line of blanks
inside a comment has no token. -/
def lexLine (text : List Char) (line : Nat) (inComment : Bool) : List Token × Bool :=
  if inComment then
    match commentClose? text with
    | none =>
      if strip text = [] then ([], true)
      else ([⟨.comment, String.ofList text, line, 0, true⟩], true)
    | some n =>
      let rest := lexFrom line n (text.drop n)
      (⟨.comment, String.ofList (text.take n), line, 0, true⟩ :: rest.1, rest.2)
  else lexFrom line 0 text

/-- The tokens of every line from the line number `line` on, carrying open comments along. -/
def lexLines (line : Nat) (inComment : Bool) : List (List Char) → List (List Token)
  | [] => []
  | text :: texts =>
    let lexed := lexLine text line inComment
    lexed.1 :: lexLines (line + 1) lexed.2 texts

theorem lexLines_length (line : Nat) (inComment : Bool) (texts : List (List Char)) :
    (lexLines line inComment texts).length = texts.length := by
  induction texts generalizing line inComment with
  | nil => rfl
  | cons text texts ih => simp [lexLines, ih]

end Polyloft
