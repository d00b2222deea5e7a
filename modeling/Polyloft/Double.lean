import Polyloft.Decimal

/-!
# Polyloft.Double

Double-precision numbers with their signs: finite ones, the two infinities and the undefined
number. Zero has a sign, which is written, but both zeros are the same number.
-/

namespace Polyloft

/-- A double. -/
inductive Double where
  | signed (negative : Bool) (magnitude : Magnitude)
  | undefined
deriving DecidableEq, Repr

namespace Double

/-- The written form: the shortest decimal that stands for the same double. -/
def render : Double → String
  | .signed negative magnitude => (if negative then "-" else "") ++ magnitude.render
  | .undefined => "nan"

/-- Is the number one of the zeros? -/
def isZero : Double → Bool
  | .signed _ magnitude => magnitude == .zero
  | .undefined => false

/-- The exact value of a finite number: a numerator and its denominator. -/
def exactValue? : Double → Option (Int × Nat)
  | .signed negative (.finite m e) =>
    let f := Magnitude.value m e
    some (if negative then -(f.num : Int) else f.num, f.den)
  | _ => none

end Double

end Polyloft
