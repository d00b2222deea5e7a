/-!
# Polyloft.Declaration.Mutability

The four words that declare a variable.
-/

namespace Polyloft

/-- How a variable may be written to. -/
inductive Mutability where
  | var
  | let
  | const
  | final
deriving DecidableEq, Repr

namespace Mutability

/-- The word that declares a variable so. -/
def keyword : Mutability → String
  | .var => "var"
  | .let => "let"
  | .const => "const"
  | .final => "final"

/-- May the variable not be reassigned? -/
def isConstant : Mutability → Bool
  | .const | .final => true
  | _ => false

end Mutability

end Polyloft
