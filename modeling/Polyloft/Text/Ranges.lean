/-!
# Polyloft.Text.Ranges

Membership of a code point in a table of closed ranges. The character classes beyond ASCII
(`Text.Word`, `Text.Digit`, `Text.Identifier`, `Text.Printable`) are such tables; each class
answers for ASCII directly and reads its table only for the rest.
-/

namespace Polyloft.Text

/-- Code points of a class, as closed ranges in increasing order. -/
abbrev Ranges := List (Nat × Nat)

/-- Is `c` in one of the ranges? -/
def Ranges.has (ranges : Ranges) (c : Char) : Bool :=
  ranges.any fun r => r.1 ≤ c.toNat && c.toNat ≤ r.2

@[simp] theorem Ranges.has_nil (c : Char) : Ranges.has [] c = false := rfl

theorem Ranges.has_iff {ranges : Ranges} {c : Char} :
    ranges.has c = true ↔ ∃ r ∈ ranges, r.1 ≤ c.toNat ∧ c.toNat ≤ r.2 := by
  simp [Ranges.has]

end Polyloft.Text
