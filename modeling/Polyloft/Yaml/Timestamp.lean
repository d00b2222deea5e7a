import Polyloft.Text.Digit
import Polyloft.Value

/-!
# Polyloft.Yaml.Timestamp

Plain scalars that are days or points in time: `2001-12-14`, `2001-12-14 21:59:43.10 -5`. The form
alone decides that a scalar is one of them; a scalar of the form that names no day of the calendar,
or a time that no clock shows, has no value and is not taken for text.
-/

namespace Polyloft.Yaml

/-- Between `least` and `most` digits: their value, and what follows them. -/
def digits? (least most : Nat) (cs : List Char) : Option (Nat × List Char) :=
  let digits := (cs.take most).takeWhile Char.isDigit
  if least ≤ digits.length then some (Text.digitsValue digits, cs.drop digits.length) else none

/-- What follows a sign. -/
def afterSign? (sign : Char) : List Char → Option (List Char)
  | [] => none
  | c :: cs => if c == sign then some cs else none

/-- What follows the gap between a day and a time: the letter T, or blanks. -/
def afterGap? : List Char → Option (List Char)
  | [] => none
  | c :: cs =>
    if c == 'T' || c == 't' then some cs
    else if c == ' ' || c == '\t' then some (cs.dropWhile fun c => c == ' ' || c == '\t')
    else none

/-- A fraction of a second in microseconds, which digits behind the sixth do not change, and what
follows it. -/
def microseconds : List Char → Nat × List Char
  | '.' :: cs =>
    let digits := (cs.takeWhile Char.isDigit).take 6
    (Text.digitsValue (digits ++ List.replicate (6 - digits.length) '0'),
      cs.dropWhile Char.isDigit)
  | cs => (0, cs)

/-- The minutes that a clock is ahead of universal time: the letter Z, or a sign with hours and
perhaps minutes. Nothing stands for a clock that is not known. -/
def offsetMinutes? (cs : List Char) : Option (Option Int) :=
  match cs.dropWhile fun c => c == ' ' || c == '\t' with
  | [] => if cs.isEmpty then some none else none
  | ['Z'] => some (some 0)
  | sign :: cs => do
    guard (sign == '+' || sign == '-')
    let (hours, cs) ← digits? 1 2 cs
    let minutes ← match cs with
      | [] => some 0
      | ':' :: cs => (digits? 2 2 cs).bind fun (minutes, rest) =>
        if rest.isEmpty then some minutes else none
      | _ => none
    let ahead : Int := (hours * 60 + minutes : Nat)
    return some (if sign == '-' then -ahead else ahead)

/-- The offset of a clock from its minutes, if it is less than a day. -/
def clockOffset? : Option Int → Option (Option ClockOffset)
  | none => some none
  | some minutes => (ClockOffset.ofMinutes? minutes).map some

/-- The time of day and the clock that follow a day: `none` if the text has not the form of them,
and the inner `none` if there is no such time. -/
def timeOfDay? (cs : List Char) : Option (Option (ClockTime × Option ClockOffset)) := do
  let (hour, cs) ← digits? 1 2 cs
  let (minute, cs) ← digits? 2 2 (← afterSign? ':' cs)
  let (second, cs) ← digits? 2 2 (← afterSign? ':' cs)
  let (microsecond, cs) := microseconds cs
  let minutes ← offsetMinutes? cs
  return do return (← ClockTime.ofParts? hour minute second microsecond, ← clockOffset? minutes)

/-- A day or a point in time: `none` if the text has not the form of one, and the inner `none` if
there is no such day or time. A day by itself has two digits for its month and day. -/
def timestamp? (cs : List Char) : Option (Option Scalar) := do
  let (year, rest) ← digits? 4 4 cs
  let (month, rest) ← digits? 1 2 (← afterSign? '-' rest)
  let (day, rest) ← digits? 1 2 (← afterSign? '-' rest)
  if rest.isEmpty then
    if cs.length = 10 then return (Date.ofParts? year month day).map .date else none
  else
    let time ← timeOfDay? (← afterGap? rest)
    return do
      let date ← Date.ofParts? year month day
      let (time, offset) ← time
      return .timestamp ⟨date, time, offset⟩

end Polyloft.Yaml
