import Polyloft.Text.Blank

/-!
# Polyloft.Text.Digit

Decimal digits of every script, and the integers written with them.
-/

namespace Polyloft.Text

/-- Code points of the digit zero beyond ASCII; the digits one to nine follow each. -/
def digitZeros : List Nat :=
  [0x660, 0x6f0, 0x7c0, 0x966, 0x9e6, 0xa66, 0xae6, 0xb66, 0xbe6, 0xc66, 0xce6, 0xd66, 0xde6,
    0xe50, 0xed0, 0xf20, 0x1040, 0x1090, 0x17e0, 0x1810, 0x1946, 0x19d0, 0x1a80, 0x1a90, 0x1b50,
    0x1bb0, 0x1c40, 0x1c50, 0xa620, 0xa8d0, 0xa900, 0xa9d0, 0xa9f0, 0xaa50, 0xabf0, 0xff10, 0x104a0,
    0x10d30, 0x11066, 0x110f0, 0x11136, 0x111d0, 0x112f0, 0x11450, 0x114d0, 0x11650, 0x116c0,
    0x11730, 0x118e0, 0x11950, 0x11c50, 0x11d50, 0x11da0, 0x16a60, 0x16ac0, 0x16b50, 0x1d7ce,
    0x1d7d8, 0x1d7e2, 0x1d7ec, 0x1d7f6, 0x1e140, 0x1e2f0, 0x1e950, 0x1fbf0]

/-- The value of a decimal digit of any script. -/
def digitValue? (c : Char) : Option Nat :=
  if c.toNat < 0x80 then
    if c.isDigit then some (c.toNat - 0x30) else none
  else
    (digitZeros.find? fun z => z ≤ c.toNat && c.toNat ≤ z + 9).map (c.toNat - ·)

/-- A decimal digit of any script. -/
def isDecimal (c : Char) : Bool :=
  (digitValue? c).isSome

/-- The number that a run of digits denotes; other characters count as zero. -/
def digitsValue (cs : List Char) : Nat :=
  cs.foldl (fun n c => 10 * n + (digitValue? c).getD 0) 0

/-- Digits in which single underscores may separate two digits. -/
def ungroupDigits? : List Char → Option (List Char)
  | [] => none
  | [c] => if isDecimal c then some [c] else none
  | c :: '_' :: cs => if isDecimal c then (ungroupDigits? cs).map (c :: ·) else none
  | c :: cs => if isDecimal c then (ungroupDigits? cs).map (c :: ·) else none

/-- The longest run of decimal digits that is read or written as an integer. -/
def maxIntegerDigits : Nat := 4300

/-- A blank that may stand around an integer: any but the information separators. -/
def isNumberBlank (c : Char) : Bool :=
  isBlank c && !(0x1c ≤ c.toNat && c.toNat ≤ 0x1f)

/-- An integer with an optional sign, blanks around it and grouped digits. -/
def readInteger? (cs : List Char) : Option Int :=
  let unsigned (ds : List Char) : Option Int :=
    (ungroupDigits? ds).bind fun ds =>
      if ds.length ≤ maxIntegerDigits then some (digitsValue ds : Int) else none
  match dropEndWhile isNumberBlank (cs.dropWhile isNumberBlank) with
  | '-' :: ds => (unsigned ds).map (- ·)
  | '+' :: ds => unsigned ds
  | ds => unsigned ds

end Polyloft.Text
