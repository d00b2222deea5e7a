import Polyloft.Text.Quoted

/-!
# Polyloft.Text.Utf8

Text from bytes. A sequence of bytes that is no character is refused, with the place of the first
such sequence and the reason: its first byte starts no character, a later byte does not continue
the character, or the bytes end too early.
-/

namespace Polyloft.Text

/-- Why bytes are no text. -/
inductive Utf8Reason where
  | invalidStart
  | invalidContinuation
  | unexpectedEnd
deriving DecidableEq, Repr

/-- The wording of the reason. -/
def Utf8Reason.message : Utf8Reason → String
  | .invalidStart => "invalid start byte"
  | .invalidContinuation => "invalid continuation byte"
  | .unexpectedEnd => "unexpected end of data"

/-- The first bytes that are no character: where they start, the first of them, and how many
belong together. -/
structure Utf8Error where
  position : Nat
  byte : UInt8
  length : Nat
  reason : Utf8Reason
deriving DecidableEq, Repr

/-- The wording of the error. -/
def Utf8Error.message (e : Utf8Error) : String :=
  let place :=
    if e.length = 1 then
      "byte 0x" ++ String.ofList (hexDigits 2 e.byte.toNat) ++ " in position " ++
        toString e.position
    else
      "bytes in position " ++ toString e.position ++ "-" ++ toString (e.position + e.length - 1)
  "'utf-8' codec can't decode " ++ place ++ ": " ++ e.reason.message

/-- How many bytes continue a character that starts with `lead`; `none` if no character does. -/
def continuationCount? (lead : UInt8) : Option Nat :=
  if lead < 0x80 then some 0
  else if lead < 0xc2 then none
  else if lead < 0xe0 then some 1
  else if lead < 0xf0 then some 2
  else if lead < 0xf5 then some 3
  else none

/-- May `b` be the second byte of a character that starts with `lead`? This excludes characters
with a shorter form, surrogates, and code points that are too large. -/
def isSecond (lead b : UInt8) : Bool :=
  let low := if lead = 0xe0 then 0xa0 else if lead = 0xf0 then 0x90 else 0x80
  let high := if lead = 0xed then 0x9f else if lead = 0xf4 then 0x8f else 0xbf
  low ≤ b && b ≤ high

/-- A byte that continues a character. -/
def isContinuation (b : UInt8) : Bool :=
  0x80 ≤ b && b ≤ 0xbf

/-- The number of bytes at the start of `bs` that continue a character begun by `lead`, at most
`count`. -/
def continuationRun (lead : UInt8) (count : Nat) (bs : List UInt8) : Nat :=
  match bs.take count with
  | [] => 0
  | b :: more => if isSecond lead b then (more.takeWhile isContinuation).length + 1 else 0

/-- The code point of a character with the given lead byte and continuation. -/
def codePoint (lead : UInt8) (more : List UInt8) : Nat :=
  let bits := match more.length with
    | 0 => lead.toNat
    | 1 => lead.toNat - 0xc0
    | 2 => lead.toNat - 0xe0
    | _ => lead.toNat - 0xf0
  more.foldl (fun n b => 64 * n + (b.toNat - 0x80)) bits

/-- The characters of some bytes, the first of which stands at `position`. -/
def decodeFrom (position : Nat) (bytes : List UInt8) : Except Utf8Error (List Char) :=
  match bytes with
  | [] => .ok []
  | lead :: rest =>
    match continuationCount? lead with
    | none => .error ⟨position, lead, 1, .invalidStart⟩
    | some count =>
      let found := continuationRun lead count rest
      if found = count then do
        let more ← decodeFrom (position + 1 + count) (rest.drop count)
        return Char.ofNat (codePoint lead (rest.take count)) :: more
      else if found = rest.length then .error ⟨position, lead, found + 1, .unexpectedEnd⟩
      else .error ⟨position, lead, found + 1, .invalidContinuation⟩
termination_by bytes.length
decreasing_by simp only [List.length_drop, List.length_cons]; omega

/-- The text that bytes stand for. -/
def decodeUtf8 (bytes : List UInt8) : Except Utf8Error (List Char) :=
  decodeFrom 0 bytes

end Polyloft.Text
