/-!
# Polyloft.Text.Blank

Blank characters and trimming. Source text is a list of code points throughout the library, so
that a column is a position in the list; trimming drops blanks at either end.
-/

namespace Polyloft.Text

/-- White space of every script, with the four ASCII information separators. -/
def isBlank (c : Char) : Bool :=
  let n := c.toNat
  (0x09 ≤ n && n ≤ 0x0d) || (0x1c ≤ n && n ≤ 0x20) || n == 0x85 || n == 0xa0 || n == 0x1680 ||
    (0x2000 ≤ n && n ≤ 0x200a) || n == 0x2028 || n == 0x2029 || n == 0x202f || n == 0x205f ||
    n == 0x3000

/-- Drops the longest run of characters satisfying `p` from the end. -/
def dropEndWhile (p : Char → Bool) : List Char → List Char
  | [] => []
  | c :: cs =>
    match dropEndWhile p cs with
    | [] => if p c then [] else [c]
    | d :: ds => c :: d :: ds

/-- Drops leading blanks. -/
def stripStart (cs : List Char) : List Char :=
  cs.dropWhile isBlank

/-- Drops trailing blanks. -/
def stripEnd (cs : List Char) : List Char :=
  dropEndWhile isBlank cs

/-- Drops blanks at both ends. -/
def strip (cs : List Char) : List Char :=
  stripEnd (stripStart cs)

/-- The number of leading blanks. -/
def leadingBlanks (cs : List Char) : Nat :=
  (cs.takeWhile isBlank).length

@[simp] theorem dropEndWhile_nil (p : Char → Bool) : dropEndWhile p [] = [] := rfl

theorem dropEndWhile_cons (p : Char → Bool) (c : Char) (cs : List Char) :
    dropEndWhile p (c :: cs) =
      if dropEndWhile p cs = [] ∧ p c = true then [] else c :: dropEndWhile p cs := by
  rw [dropEndWhile]
  cases h : dropEndWhile p cs <;> cases hp : p c <;> simp

/-- What is dropped stands at the end and satisfies `p`. -/
theorem dropEndWhile_append_rest (p : Char → Bool) (cs : List Char) :
    ∃ tail, cs = dropEndWhile p cs ++ tail ∧ ∀ c ∈ tail, p c = true := by
  induction cs with
  | nil => exact ⟨[], rfl, by simp⟩
  | cons c cs ih =>
    obtain ⟨tail, heq, htail⟩ := ih
    rw [dropEndWhile_cons]
    split
    · next h =>
      refine ⟨c :: cs, by simp, fun d hd => ?_⟩
      rw [h.1] at heq
      rcases List.mem_cons.1 hd with rfl | hd
      · exact h.2
      · exact htail d (by rw [heq] at hd; simpa using hd)
    · exact ⟨tail, by rw [List.cons_append, ← heq], htail⟩

theorem length_dropEndWhile_le (p : Char → Bool) (cs : List Char) :
    (dropEndWhile p cs).length ≤ cs.length := by
  obtain ⟨tail, heq, _⟩ := dropEndWhile_append_rest p cs
  have := congrArg List.length heq
  simp at this
  omega

end Polyloft.Text
