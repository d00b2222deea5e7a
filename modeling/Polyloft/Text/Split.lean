/-!
# Polyloft.Text.Split

Cutting a text at a separator, and joining the pieces again.
-/

namespace Polyloft.Text

/-- Puts a character in front of the first piece. -/
def consPiece (c : Char) : List (List Char) → List (List Char)
  | [] => [[c]]
  | piece :: pieces => (c :: piece) :: pieces

/-- Cuts a text at every `sep`; there is always at least one piece. -/
def splitOnChar (sep : Char) : List Char → List (List Char)
  | [] => [[]]
  | c :: cs => if c = sep then [] :: splitOnChar sep cs else consPiece c (splitOnChar sep cs)

/-- Cuts a text at every occurrence of a text that starts with `c` and goes on with `tail`, from
left to right and without overlaps. -/
def splitOnText (c : Char) (tail : List Char) (cs : List Char) : List (List Char) :=
  match cs with
  | [] => [[]]
  | d :: ds =>
    if d = c ∧ tail.isPrefixOf ds then [] :: splitOnText c tail (ds.drop tail.length)
    else consPiece d (splitOnText c tail ds)
termination_by cs.length
decreasing_by
  · simp only [List.length_drop, List.length_cons]; omega
  · simp

/-- Joins pieces with `sep` between each two. -/
def joinWith (sep : Char) : List (List Char) → List Char
  | [] => []
  | [piece] => piece
  | piece :: pieces => piece ++ sep :: joinWith sep pieces

theorem consPiece_ne_nil (c : Char) (pieces : List (List Char)) : consPiece c pieces ≠ [] := by
  cases pieces <;> simp [consPiece]

theorem splitOnChar_ne_nil (sep : Char) (cs : List Char) : splitOnChar sep cs ≠ [] := by
  cases cs with
  | nil => simp [splitOnChar]
  | cons c cs =>
    rw [splitOnChar]
    split
    · simp
    · exact consPiece_ne_nil _ _

theorem joinWith_cons {sep : Char} {piece : List Char} {pieces : List (List Char)}
    (h : pieces ≠ []) : joinWith sep (piece :: pieces) = piece ++ sep :: joinWith sep pieces := by
  cases pieces with
  | nil => exact absurd rfl h
  | cons p ps => rfl

theorem joinWith_consPiece {sep c : Char} {pieces : List (List Char)} (h : pieces ≠ []) :
    joinWith sep (consPiece c pieces) = c :: joinWith sep pieces := by
  cases pieces with
  | nil => exact absurd rfl h
  | cons p ps => cases ps <;> rfl

/-- Joining the pieces of a text gives the text back. -/
theorem joinWith_splitOnChar (sep : Char) (cs : List Char) :
    joinWith sep (splitOnChar sep cs) = cs := by
  induction cs with
  | nil => rfl
  | cons c cs ih =>
    rw [splitOnChar]
    split
    · next h => rw [joinWith_cons (splitOnChar_ne_nil sep cs), ih, h]; rfl
    · rw [joinWith_consPiece (splitOnChar_ne_nil sep cs), ih]

/-- No piece contains the separator. -/
theorem not_mem_of_mem_splitOnChar {sep : Char} {cs piece : List Char}
    (h : piece ∈ splitOnChar sep cs) : sep ∉ piece := by
  induction cs generalizing piece with
  | nil => simp only [splitOnChar, List.mem_singleton] at h; simp [h]
  | cons c cs ih =>
    rw [splitOnChar] at h
    split at h
    · rcases List.mem_cons.1 h with rfl | h
      · simp
      · exact ih h
    · next hc =>
      cases hs : splitOnChar sep cs with
      | nil => exact absurd hs (splitOnChar_ne_nil sep cs)
      | cons p ps =>
        rw [hs] at h ih
        rcases List.mem_cons.1 h with rfl | h
        · simpa [List.mem_cons, Ne.symm hc] using ih List.mem_cons_self
        · exact ih (List.mem_cons_of_mem p h)

end Polyloft.Text
