/-!
# Polyloft.Decimal

Decimal numbers and the double-precision numbers nearest to them. Numbers with a fraction occur in
catalogs, where a value is shown by the shortest decimal that stands for the same double. All
arithmetic is on natural numbers: the magnitude of a double is `mantissa * 2 ^ exponent`, and
rounding compares exact fractions. Signs are added in `Polyloft.Double`.
-/

namespace Polyloft

/-- The number `mantissa * 10 ^ exponent`. -/
structure Decimal where
  mantissa : Nat
  exponent : Int
deriving DecidableEq, Repr

/-- A nonnegative fraction. -/
structure Fraction where
  num : Nat
  den : Nat
deriving DecidableEq, Repr

namespace Fraction

/-- The number `n * base ^ e`. -/
def ofPower (n base : Nat) (e : Int) : Fraction :=
  if 0 ≤ e then ⟨n * base.pow e.toNat, 1⟩ else ⟨n, base.pow (-e).toNat⟩

/-- The fraction divided by `base ^ e`. -/
def scale (f : Fraction) (base : Nat) (e : Int) : Fraction :=
  if 0 ≤ e then ⟨f.num, f.den * base.pow e.toNat⟩ else ⟨f.num * base.pow (-e).toNat, f.den⟩

/-- Is `f` less than `g`? -/
def lt (f g : Fraction) : Bool :=
  f.num * g.den < g.num * f.den

/-- The nearest natural number, a half going to the even one. -/
def round (f : Fraction) : Nat :=
  let q := f.num / f.den
  let twice := 2 * (f.num % f.den)
  if f.den < twice || (twice == f.den && q % 2 == 1) then q + 1 else q

/-- The sum of two fractions. -/
def add (f g : Fraction) : Fraction :=
  ⟨f.num * g.den + g.num * f.den, f.den * g.den⟩

/-- The product of two fractions. -/
def mul (f g : Fraction) : Fraction :=
  ⟨f.num * g.num, f.den * g.den⟩

/-- The distance between two fractions. -/
def distance (f g : Fraction) : Fraction :=
  let a := f.num * g.den
  let b := g.num * f.den
  ⟨max a b - min a b, f.den * g.den⟩

end Fraction

/-- The magnitude of a double: a finite nonnegative number, or one too large to be finite. -/
inductive Magnitude where
  | finite (mantissa : Nat) (exponent : Int)
  | infinite
deriving DecidableEq, Repr

namespace Magnitude

/-- The least exponent of a double. -/
def minExponent : Int := -1074

/-- The greatest exponent of a double. -/
def maxExponent : Int := 971

/-- The magnitude of zero. -/
def zero : Magnitude := .finite 0 minExponent

/-- The magnitude nearest to a fraction, a half going to the even mantissa. The result is the
only one of its value: its mantissa has 53 bits unless its exponent is the least one. -/
def nearest (f : Fraction) : Magnitude :=
  if f.num = 0 then zero
  else
    let guess : Int := (f.num.log2 : Int) - (f.den.log2 : Int) - 52
    -- The quotient by `2 ^ guess` lies between `2 ^ 51` and `2 ^ 53`.
    let guess := if (f.scale 2 guess).lt ⟨Nat.pow 2 52, 1⟩ then guess - 1 else guess
    let e := max guess minExponent
    let m := (f.scale 2 e).round
    let (m, e) := if m = Nat.pow 2 53 then (Nat.pow 2 52, e + 1) else (m, e)
    if maxExponent < e then .infinite else .finite m e

/-- The magnitude nearest to a natural number. -/
def ofNat (n : Nat) : Magnitude :=
  nearest ⟨n, 1⟩

/-- The fraction that the magnitude `m * 2 ^ e` stands for. -/
def value (m : Nat) (e : Int) : Fraction :=
  Fraction.ofPower m 2 e

/-- The rounded sum of two magnitudes. -/
def add : Magnitude → Magnitude → Magnitude
  | .finite m e, .finite n f => nearest ((value m e).add (value n f))
  | _, _ => .infinite

/-- The rounded product of a magnitude and the one nearest to a positive number. -/
def scale (a : Magnitude) (n : Nat) : Magnitude :=
  match a, ofNat n with
  | .finite m e, .finite k f => nearest ((value m e).mul (value k f))
  | _, _ => .infinite

/-- Does a fraction round to the magnitude `m * 2 ^ e`? -/
def roundsTo (m : Nat) (e : Int) (f : Fraction) : Bool :=
  nearest f == .finite m e

/-- The power of ten `p` with `10 ^ p ≤ f < 10 ^ (p + 1)`, searched upwards from `p`. -/
def powerOfTen (fuel : Nat) (p : Int) (f : Fraction) : Int :=
  match fuel with
  | 0 => p
  | fuel + 1 => if f.lt (Fraction.ofPower 1 10 (p + 1)) then p else powerOfTen fuel (p + 1) f

/-- The shortest digits that round to a positive magnitude, and the power of ten of the last of
them. Of two candidates of one length the nearer is taken. -/
def shortest (m : Nat) (e : Int) : Nat × Int :=
  let v := value m e
  let top := powerOfTen 640 (-330) v
  let candidate (digits : Nat) : Option (Nat × Int) :=
    let p := top - (digits : Int) + 1
    let scaled := v.scale 10 p
    let low := scaled.num / scaled.den
    let isHit (n : Nat) : Bool := roundsTo m e (Fraction.ofPower n 10 p)
    match isHit low, isHit (low + 1) with
    | true, true =>
      let dLow := scaled.distance ⟨low, 1⟩
      let dHigh := scaled.distance ⟨low + 1, 1⟩
      some (if dHigh.lt dLow || (!dLow.lt dHigh && low % 2 == 1) then (low + 1, p) else (low, p))
    | true, false => some (low, p)
    | false, true => some (low + 1, p)
    | false, false => none
  ((List.range 17).findSome? fun n => candidate (n + 1)).getD (m, 0)

end Magnitude

/-- Digits without the zeros at their end, and how many zeros there were. -/
def dropZeros : List Char → List Char × Nat
  | cs =>
    let kept := (cs.reverse.dropWhile (· == '0')).reverse
    (kept, cs.length - kept.length)

/-- Digits with a point behind the first `point` of them: positional while the exponent is
between -4 and 15, with an exponent of at least two digits otherwise. -/
def renderDigits (digits : List Char) (point : Int) : String :=
  let n : Int := digits.length
  if -4 < point ∧ point ≤ 16 then
    if point ≤ 0 then "0." ++ String.ofList (List.replicate (-point).toNat '0' ++ digits)
    else if n ≤ point then
      String.ofList (digits ++ List.replicate (point - n).toNat '0') ++ ".0"
    else
      String.ofList (digits.take point.toNat ++ '.' :: digits.drop point.toNat)
  else
    let e := point - 1
    let exponent := (toString e.natAbs)
    let exponent := if exponent.length < 2 then "0" ++ exponent else exponent
    let fraction := digits.drop 1
    String.ofList (digits.take 1 ++ if fraction = [] then [] else '.' :: fraction) ++
      "e" ++ (if e < 0 then "-" else "+") ++ exponent

/-- The shortest decimal that stands for the magnitude. -/
def Magnitude.render : Magnitude → String
  | .infinite => "inf"
  | .finite 0 _ => "0.0"
  | .finite m e =>
    let (n, p) := shortest m e
    let (digits, zeros) := dropZeros (Nat.toDigits 10 n)
    renderDigits digits (digits.length + zeros + p)

/-- The magnitude nearest to a decimal. Far outside of the range of doubles the answer is known
from the exponent alone: `10 ^ 400` is too large, and a mantissa of `b` bits cannot lift
`10 ^ -(b + 400)` above zero. -/
def Decimal.magnitude (d : Decimal) : Magnitude :=
  if d.mantissa = 0 then .zero
  else if 400 ≤ d.exponent then .infinite
  else if d.exponent < -((d.mantissa.log2 : Int) + 401) then .zero
  else .nearest (Fraction.ofPower d.mantissa 10 d.exponent)

/-- Does the number stand for the double zero? -/
def Decimal.isZero (d : Decimal) : Bool :=
  d.magnitude == .zero

end Polyloft
