import Polyloft.Fault
import Polyloft.Text.Newline
import Polyloft.Token.Lexer

/-!
# Polyloft.Document

A source document as numbered lines, each with its tokens. Three texts of a line matter to later
layers: the raw text, the `code` with comments blanked out, and the `masked` code with the insides
of string literals blanked out as well. Blanking replaces characters by spaces, so all three have
the same columns.
-/

namespace Polyloft

open Polyloft.Text

/-- A place in a document; both numbers count from zero and may lie outside of it. -/
structure Position where
  line : Int
  character : Int
deriving DecidableEq, Repr

/-- Replaces the characters at positions `lo ≤ i < hi` by spaces. -/
def blankSpan (lo hi : Nat) (cs : List Char) : List Char :=
  cs.mapIdx fun i c => if lo ≤ i ∧ i < hi then ' ' else c

@[simp] theorem length_blankSpan (lo hi : Nat) (cs : List Char) :
    (blankSpan lo hi cs).length = cs.length := by
  simp [blankSpan]

/-- One line of a document. -/
structure Line where
  index : Nat
  text : List Char
  tokens : List Token
deriving DecidableEq, Repr

namespace Line

/-- The tokens that are not comments. -/
def codeTokens (line : Line) : List Token :=
  Polyloft.codeTokens line.tokens

/-- Blanks the span of a comment. -/
def blankComment (cs : List Char) (t : Token) : List Char :=
  if t.kind = .comment then blankSpan t.column t.stop cs else cs

/-- Blanks the inside of a string literal and keeps its quotes. -/
def blankString (cs : List Char) (t : Token) : List Char :=
  if t.kind = .string then
    blankSpan (t.column + 1) (if t.terminated then t.stop - 1 else t.stop) cs
  else cs

/-- The text with comments blanked out. -/
def code (line : Line) : List Char :=
  line.tokens.foldl blankComment line.text

/-- The code with the insides of string literals blanked out. -/
def masked (line : Line) : List Char :=
  line.tokens.foldl blankString line.code

/-- Nothing but blanks and comments. -/
def isBlank (line : Line) : Bool :=
  line.code.all Text.isBlank

/-- The number of leading spaces and tabs. -/
def indent (line : Line) : Nat :=
  (line.text.takeWhile fun c => c == ' ' || c == '\t').length

/-- The words of a text with the column of each: runs of word characters, each begun by an
ASCII letter or an underscore. -/
def wordsFrom (column : Nat) : List Char → List (Nat × List Char)
  | [] => []
  | c :: cs =>
    if isNameStart c then
      let tail := cs.takeWhile isWord
      (column, c :: tail) :: wordsFrom (column + 1 + tail.length) (cs.drop tail.length)
    else wordsFrom (column + 1) cs
termination_by cs => cs.length
decreasing_by
  · simp only [List.length_drop, List.length_cons]; omega
  · simp

/-- The first word that `character` touches: its text, where it starts and where it stops. -/
def wordAt? (line : Line) (character : Int) : Option (String × Nat × Nat) :=
  let touched := (wordsFrom 0 line.text).find? fun w =>
    (w.1 : Int) ≤ character && character ≤ ((w.1 + w.2.length : Nat) : Int)
  touched.map fun w => (String.ofList w.2, w.1, w.1 + w.2.length)

theorem length_foldl_blankComment (tokens : List Token) (cs : List Char) :
    (tokens.foldl blankComment cs).length = cs.length := by
  induction tokens generalizing cs with
  | nil => rfl
  | cons t ts ih => rw [List.foldl_cons, ih]; unfold blankComment; split <;> simp

theorem length_foldl_blankString (tokens : List Token) (cs : List Char) :
    (tokens.foldl blankString cs).length = cs.length := by
  induction tokens generalizing cs with
  | nil => rfl
  | cons t ts ih => rw [List.foldl_cons, ih]; unfold blankString; split <;> simp

@[simp] theorem length_code (line : Line) : line.code.length = line.text.length :=
  length_foldl_blankComment _ _

@[simp] theorem length_masked (line : Line) : line.masked.length = line.text.length := by
  rw [masked, length_foldl_blankString, length_code]

end Line

/-- Numbers lines from `index` on and pairs each with its tokens. -/
def numberLines (index : Nat) : List (List Char) → List (List Token) → List Line
  | text :: texts, tokens :: rest => ⟨index, text, tokens⟩ :: numberLines (index + 1) texts rest
  | _, _ => []

/-- The lines of a source file, with the name it is known by. -/
structure Document where
  lines : List Line
  uri : Option String := none
deriving DecidableEq, Repr

namespace Document

/-- Reads a text; every line is lexed once, here. -/
def ofText (text : List Char) (uri : Option String) : Document :=
  let texts := splitLines (normaliseNewlines text)
  ⟨numberLines 0 texts (lexLines 0 false texts), uri⟩

/-- The number of lines; a document read from text has at least one. -/
def size (doc : Document) : Nat :=
  doc.lines.length

/-- The text with every line ending written as a line feed. -/
def text (doc : Document) : List Char :=
  joinLines (doc.lines.map Line.text)

/-- The line with the given number, if there is one. -/
def line? (doc : Document) (index : Int) : Option Line :=
  if index < 0 then none else doc.lines[index.toNat]?

/-- The line with the given number, which the document must have. -/
def lineAt (doc : Document) (index : Nat) : Except Fault Line :=
  match doc.lines[index]? with
  | some line => .ok line
  | none => .error (.missingLine index)

/-- The lines from `first` through `last`, all of which the document must have. -/
def linesBetween (doc : Document) (first last : Nat) : Except Fault (List Line) :=
  (List.range' first (last + 1 - first)).mapM doc.lineAt

/-- Every code token in document order. -/
def codeTokens (doc : Document) : List Token :=
  doc.lines.flatMap Line.codeTokens

/-- The word under a position: its text, where it starts and where it stops. -/
def wordAt? (doc : Document) (position : Position) : Option (String × Nat × Nat) :=
  (doc.line? position.line).bind (Line.wordAt? · position.character)

theorem numberLines_length (index : Nat) (texts : List (List Char)) (tokens : List (List Token))
    (h : tokens.length = texts.length) :
    (numberLines index texts tokens).length = texts.length := by
  induction texts generalizing index tokens with
  | nil => cases tokens <;> rfl
  | cons text texts ih =>
    cases tokens with
    | nil => simp at h
    | cons ts rest => simp [numberLines, ih (index + 1) rest (by simpa using h)]

end Document

end Polyloft
