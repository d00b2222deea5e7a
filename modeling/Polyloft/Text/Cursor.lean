import Polyloft.Text.Blank
import Polyloft.Text.Word

/-!
# Polyloft.Text.Cursor

Reading a line from left to right. A cursor is a position together with the text from there on, so
what is read can be given back as a span of columns. Every reading step returns the cursor behind
what it read; `Cursor.Within` says that a cursor lies on a given text, and each step keeps that.
-/

namespace Polyloft.Text

/-- The columns from `start` up to, and without, `stop`. -/
structure Span where
  start : Nat
  stop : Nat
deriving DecidableEq, Repr

/-- The characters of a text at the columns of a span. -/
def Span.slice (s : Span) (cs : List Char) : List Char :=
  (cs.drop s.start).take (s.stop - s.start)

/-- A position and the text from there on. -/
structure Cursor where
  pos : Nat
  rest : List Char
deriving DecidableEq, Repr

namespace Cursor

/-- The start of a text. -/
def ofText (cs : List Char) : Cursor :=
  ⟨0, cs⟩

/-- `n` characters further, or at the end. -/
def advance (c : Cursor) (n : Nat) : Cursor :=
  ⟨c.pos + n, c.rest.drop n⟩

/-- Behind the longest run of characters satisfying `p`. -/
def skipWhile (p : Char → Bool) (c : Cursor) : Cursor :=
  c.advance (c.rest.takeWhile p).length

/-- Behind any blanks. -/
def skipBlanks (c : Cursor) : Cursor :=
  c.skipWhile isBlank

/-- Behind one or more blanks. -/
def blanks? (c : Cursor) : Option Cursor :=
  if c.rest.head?.any isBlank then some c.skipBlanks else none

/-- Behind the given text. -/
def literal? (c : Cursor) (w : String) : Option Cursor :=
  if w.toList.isPrefixOf c.rest then some (c.advance w.length) else none

/-- Behind the given word and the blanks that must follow it. -/
def word? (c : Cursor) (w : String) : Option Cursor :=
  (c.literal? w).bind blanks?

/-- One character satisfying `first` and a run of characters satisfying `more`: the span and the
cursor behind it. -/
def run? (c : Cursor) (first more : Char → Bool) : Option (Span × Cursor) :=
  match c.rest with
  | [] => none
  | d :: ds =>
    if first d then
      let n := 1 + (ds.takeWhile more).length
      some (⟨c.pos, c.pos + n⟩, c.advance n)
    else none

/-- A name. -/
def name? (c : Cursor) : Option (Span × Cursor) :=
  c.run? isNameStart isWord

/-- Repeats a step as long as it succeeds and moves forward. -/
def many (step : Cursor → Option Cursor) (c : Cursor) : Cursor :=
  match step c with
  | none => c
  | some c' => if c'.rest.length < c.rest.length then many step c' else c
termination_by c.rest.length

/-- Is nothing left? -/
def atEnd (c : Cursor) : Bool :=
  c.rest.isEmpty

/-- The cursor stands on `cs`, at its position. -/
def Within (c : Cursor) (cs : List Char) : Prop :=
  cs.drop c.pos = c.rest

theorem within_ofText (cs : List Char) : (ofText cs).Within cs := rfl

theorem Within.advance {c : Cursor} {cs : List Char} (h : c.Within cs) (n : Nat) :
    (c.advance n).Within cs := by
  simp only [Within, Cursor.advance] at *
  rw [← h, List.drop_drop]

end Cursor

/-- The length of the shortest nonempty beginning of `cs` behind which `done` holds, or of all
of it. -/
def shortest (done : List Char → Bool) : List Char → Nat
  | [] => 0
  | _ :: cs => if done cs then 1 else 1 + shortest done cs

end Polyloft.Text
