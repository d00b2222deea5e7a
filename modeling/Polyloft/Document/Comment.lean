import Polyloft.Document
import Polyloft.Text.Blank

/-!
# Polyloft.Document.Comment

The comment block written directly above a line, which documents what the line declares. The lines
above are read from the nearest one upwards: blank lines are passed over, annotations too as long
as no comment was met, and the first line that is neither ends the block. Only the raw text of the
lines is looked at.
-/

namespace Polyloft

open Polyloft.Text

/-- Does a text end with `tail`? -/
def endsWith (tail cs : List Char) : Bool :=
  tail.reverse.isPrefixOf cs.reverse

/-- Does `c` followed by `d` occur in a text? -/
def hasPair (c d : Char) : List Char → Bool
  | [] => false
  | x :: xs => (x == c && xs.head? == some d) || hasPair c d xs

/-- A text without the marker that opens a block comment. -/
def dropBlockOpening : List Char → List Char
  | '/' :: '*' :: '*' :: cs => cs
  | '/' :: '*' :: cs => cs
  | cs => cs

/-- A text without the marker that closes a block comment. -/
def dropBlockClosing (cs : List Char) : List Char :=
  if endsWith ['*', '/'] cs then cs.take (cs.length - 2) else cs

/-- A text without the star that leads a line of a block comment. -/
def dropStar : List Char → List Char
  | '*' :: cs => cs
  | cs => cs

/-- What a line of a block comment says. -/
def blockCommentText (cs : List Char) : List Char :=
  strip (dropStar (strip (dropBlockClosing (dropBlockOpening (strip cs)))))

/-- The lines of a block comment read upwards to the line that opens it, and the lines above. -/
def blockComment : List Line → List (List Char) × List Line
  | [] => ([], [])
  | line :: above =>
    if hasPair '/' '*' line.text then ([blockCommentText line.text], above)
    else
      let (texts, rest) := blockComment above
      (blockCommentText line.text :: texts, rest)

theorem length_blockComment_le (lines : List Line) :
    (blockComment lines).2.length ≤ lines.length := by
  induction lines with
  | nil => simp [blockComment]
  | cons line above ih => rw [blockComment]; split <;> simp; omega

theorem length_blockComment_cons_lt (line : Line) (above : List Line) :
    (blockComment (line :: above)).2.length < (line :: above).length := by
  have := length_blockComment_le above
  rw [blockComment]
  split <;> simp
  omega

/-- The texts of the comments read upwards from the nearest line. `found` says whether a comment
was met before. -/
def commentTexts (found : Bool) (lines : List Line) : List (List Char) :=
  match lines with
  | [] => []
  | line :: above =>
    let text := strip line.text
    if text = [] || (text.head? == some '@' && !found) then commentTexts found above
    else if ['/', '/'].isPrefixOf text then strip (text.drop 2) :: commentTexts true above
    else if endsWith ['*', '/'] text then
      have := length_blockComment_cons_lt line above
      (blockComment (line :: above)).1 ++ commentTexts true (blockComment (line :: above)).2
    else []
termination_by lines.length
decreasing_by
  all_goals simp only [List.length_cons] at *
  all_goals omega

/-- The comment block that ends just above, given the lines above from the nearest one upwards. -/
def commentOf (above : List Line) : Option String :=
  match (commentTexts false above).reverse.filter (· ≠ []) with
  | [] => none
  | parts => some (String.ofList (joinLines parts))

namespace Document

/-- The lines above a line, from the nearest one upwards. -/
def linesAbove (doc : Document) (line : Nat) : List Line :=
  (doc.lines.take line).reverse

/-- The comment block directly above a line, which must not lie below the document. Above a line
before the first there is none. -/
def commentAbove (doc : Document) (line : Int) : Except Fault (Option String) :=
  if (doc.size : Int) < line then .error (.missingLine (line - 1))
  else .ok (commentOf (doc.linesAbove line.toNat))

end Document

end Polyloft
