import Polyloft.Text.Digit
import Polyloft.Value
import Polyloft.Yaml.Timestamp
import Polyloft.Yaml.Token

/-!
# Polyloft.Yaml.Scalar

What plain scalars mean: truth values, nothing, whole numbers in several bases, numbers with a
fraction, dates, and text otherwise. Digits may be grouped with underscores, and parts of sixty
with colons. The form of a scalar decides what it is, so the readers here give `none` for a text of
another form, and an error for one that has the form and stands for nothing.
-/

namespace Polyloft.Yaml

/-- The words for a truth value. -/
def boolean? (s : String) : Option Bool :=
  if ["yes", "Yes", "YES", "true", "True", "TRUE", "on", "On", "ON"].contains s then some true
  else if ["no", "No", "NO", "false", "False", "FALSE", "off", "Off", "OFF"].contains s then
    some false
  else none

/-- The words for nothing. -/
def isNull (s : String) : Bool :=
  ["", "~", "null", "Null", "NULL"].contains s

/-- An optional sign, and what follows. -/
def splitSign : List Char → Bool × List Char
  | '-' :: cs => (true, cs)
  | '+' :: cs => (false, cs)
  | cs => (false, cs)

/-- The value of digits in a base; underscores are passed over. -/
def digitsIn (base : Nat) (cs : List Char) : Nat :=
  (cs.filter (· != '_')).foldl
    (fun n c =>
      let d := if c.isDigit then c.toNat - 0x30 else (c.toLower.toNat - 0x61) + 10
      base * n + d) 0

/-- A digit or an underscore that groups digits. -/
def isGrouped (isDigit : Char → Bool) (c : Char) : Bool :=
  c == '_' || isDigit c

/-- Digits grouped by underscores, the first of them a digit accepted by `first`. -/
def isDigitRun (first : Char → Bool) : List Char → Bool
  | [] => false
  | c :: cs => first c && cs.all (isGrouped Char.isDigit)

/-- A part of sixty: one or two digits, the first of two below six. -/
def isSixtieth : List Char → Bool
  | [c] => c.isDigit
  | [c, d] => '0' ≤ c && c ≤ '5' && d.isDigit
  | _ => false

/-- Cuts a text at colons. -/
def colonParts (cs : List Char) : List (List Char) :=
  cs.foldr
    (fun c parts =>
      if c == ':' then [] :: parts
      else
        match parts with
        | [] => [[c]]
        | p :: ps => (c :: p) :: ps) [[]]

/-- The value of digits of a base that is a power of two; there has to be one besides the
underscores. -/
def powerDigits (base : Nat) (cs : List Char) : Except YamlError Nat :=
  if cs.all (· == '_') then .error .noSuchValue else .ok (digitsIn base cs)

/-- The value of decimal digits; there must not be too many. -/
def decimalDigits (cs : List Char) : Except YamlError Nat :=
  if Text.maxIntegerDigits < (cs.filter (· != '_')).length then .error .noSuchValue
  else .ok (digitsIn 10 cs)

/-- A hexadecimal digit. -/
def isHexDigit (c : Char) : Bool :=
  c.isDigit || ('a' ≤ c && c ≤ 'f') || ('A' ≤ c && c ≤ 'F')

/-- A whole number without its sign. -/
def natural? (cs : List Char) : Option (Except YamlError Nat) :=
  match cs with
  | ['0'] => some (.ok 0)
  | '0' :: 'b' :: ds =>
    if !ds.isEmpty && ds.all (isGrouped fun c => c == '0' || c == '1') then
      some (powerDigits 2 ds)
    else none
  | '0' :: 'x' :: ds =>
    if !ds.isEmpty && ds.all (isGrouped isHexDigit) then some (powerDigits 16 ds) else none
  | '0' :: ds =>
    if ds.all (isGrouped fun c => '0' ≤ c && c ≤ '7') then some (.ok (digitsIn 8 ds)) else none
  | ds =>
    match colonParts ds with
    | [] => none
    | whole :: parts =>
      if isDigitRun (fun c => '1' ≤ c && c ≤ '9') whole && parts.all isSixtieth then
        some ((decimalDigits whole).map fun n =>
          parts.foldl (fun n p => 60 * n + digitsIn 10 p) n)
      else none

/-- A whole number. -/
def integer? (cs : List Char) : Option (Except YamlError Int) :=
  let (negative, digits) := splitSign cs
  (natural? digits).map (Except.map fun (n : Nat) => if negative then -(n : Int) else n)

/-- An exponent: a letter, a sign and digits. -/
def exponent? : List Char → Option Int
  | [] => some 0
  | e :: sign :: ds =>
    if (e == 'e' || e == 'E') && (sign == '-' || sign == '+') && !ds.isEmpty && ds.all Char.isDigit
    then
      let n : Int := digitsIn 10 ds
      some (if sign == '-' then -n else n)
    else none
  | _ => none

/-- The decimal with the given digits before and after its point. -/
def decimalOf (whole fraction : List Char) (exponent : Int) : Decimal :=
  let fraction := fraction.filter (· != '_')
  ⟨digitsIn 10 (whole ++ fraction), exponent - (fraction.length : Int)⟩

/-- Parts of sixty, the last one first, as one number. Each product and each sum is rounded, so
the result need not be the nearest to the number that is written. -/
def sumSixtieths (parts : List Decimal) : Magnitude :=
  (parts.foldl
    (fun (sum, weight) p => (sum.add (p.magnitude.scale weight), 60 * weight))
    (Magnitude.zero, 1)).1

/-- A number in parts of sixty with a fraction. The weight of every part has to be finite. -/
def sixtieths? (whole fraction : List Char) : Option (Except YamlError Magnitude) :=
  match colonParts whole with
  | first :: second :: parts =>
    if isDigitRun Char.isDigit first && (second :: parts).all isSixtieth &&
        fraction.all (isGrouped Char.isDigit) then
      match (first :: second :: parts).reverse with
      | [] => none
      | last :: before =>
        if Magnitude.ofNat (Nat.pow 60 before.length) == .infinite then some (.error .outOfRange)
        else some (.ok (sumSixtieths
          (decimalOf last fraction 0 :: before.map fun p => decimalOf p [] 0)))
    else none
  | _ => none

/-- A number with a fraction, without its sign, if it has one. -/
def magnitude? (signed : Bool) (cs : List Char) : Option (Except YamlError Magnitude) :=
  let whole := cs.takeWhile (· != '.')
  match cs.dropWhile (· != '.') with
  | [] => none
  | _ :: tail =>
    let fraction := tail.takeWhile (isGrouped Char.isDigit)
    let after := tail.dropWhile (isGrouped Char.isDigit)
    let decimal (exponent : Int) : Except YamlError Magnitude :=
      .ok (decimalOf whole fraction exponent).magnitude
    if whole.isEmpty then
      if ["inf", "Inf", "INF"].contains (String.ofList tail) then some (.ok .infinite)
      else if fraction.head?.any Char.isDigit && !signed then (exponent? after).map decimal
      else none
    else if isDigitRun Char.isDigit whole then (exponent? after).map decimal
    else if after.isEmpty then sixtieths? whole fraction
    else none

/-- A number with a fraction, or the undefined number. -/
def real? (cs : List Char) : Option (Except YamlError Double) :=
  if [".nan", ".NaN", ".NAN"].contains (String.ofList cs) then some (.ok .undefined)
  else
    let (negative, digits) := splitSign cs
    (magnitude? (digits.length != cs.length) digits).map (Except.map (Double.signed negative))

/-- A number. -/
def number? (cs : List Char) : Option (Except YamlError Scalar) :=
  ((real? cs).map (Except.map Scalar.real)).or ((integer? cs).map (Except.map Scalar.int))

/-- A day or a point in time. -/
def dated? (cs : List Char) : Option (Except YamlError Scalar) :=
  (timestamp? cs).map fun value => value.elim (.error .noSuchValue) .ok

/-- What a plain scalar means. -/
def plainScalar (cs : List Char) : Except YamlError Scalar :=
  let s := String.ofList cs
  if isNull s then .ok .null
  else
    match boolean? s with
    | some b => .ok (.bool b)
    | none => ((number? cs).or (dated? cs)).getD (.ok (.str s))

end Polyloft.Yaml
