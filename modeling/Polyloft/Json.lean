import Polyloft.Text.Quoted

/-!
# Polyloft.Json

JSON as reports are printed: indented by two blanks for each level, and ASCII only.
-/

namespace Polyloft

open Polyloft.Text

/-- A JSON value of a report. -/
inductive Json where
  | null
  | int (n : Int)
  | str (s : String)
  | list (items : List Json)
  | object (fields : List (String × Json))

namespace Json

/-- A text or nothing. -/
def ofText? : Option String → Json
  | none => .null
  | some s => .str s

/-- An escape by UTF-16 code unit. -/
def unitEscape (n : Nat) : List Char :=
  ['\\', 'u'] ++ hexDigits 4 n

/-- A character inside quotes. Every character but the visible ones of ASCII and the blank is
escaped; beyond the basic plane two units stand for one character. -/
def escapeChar (c : Char) : List Char :=
  if c = '"' then ['\\', '"']
  else if c = '\\' then ['\\', '\\']
  else if c = '\n' then ['\\', 'n']
  else if c = '\r' then ['\\', 'r']
  else if c = '\t' then ['\\', 't']
  else if c = '\x08' then ['\\', 'b']
  else if c = '\x0c' then ['\\', 'f']
  else if 0x20 ≤ c.toNat ∧ c.toNat < 0x7f then [c]
  else if c.toNat < 0x10000 then unitEscape c.toNat
  else
    let n := c.toNat - 0x10000
    unitEscape (0xd800 + n / 0x400) ++ unitEscape (0xdc00 + n % 0x400)

/-- A text in quotes. -/
def escape (s : String) : String :=
  String.ofList ('"' :: s.toList.flatMap escapeChar ++ ['"'])

/-- The line break before an item that is nested `depth` levels deep. -/
def breakAt (depth : Nat) : String :=
  "\n" ++ String.ofList (List.replicate (2 * depth) ' ')

mutual

/-- The text of a value that is nested `depth` levels deep. -/
def renderAt (depth : Nat) : Json → String
  | .null => "null"
  | .int n => toString n
  | .str s => escape s
  | .list [] => "[]"
  | .list (x :: xs) => "[" ++ renderItems (depth + 1) (x :: xs) ++ breakAt depth ++ "]"
  | .object [] => "\x7b\x7d"
  | .object (f :: fs) => "\x7b" ++ renderFields (depth + 1) (f :: fs) ++ breakAt depth ++ "\x7d"

/-- The items of a list, each on lines of its own. -/
def renderItems (depth : Nat) : List Json → String
  | [] => ""
  | [x] => breakAt depth ++ renderAt depth x
  | x :: xs => breakAt depth ++ renderAt depth x ++ "," ++ renderItems depth xs

/-- The fields of an object, each on lines of its own. -/
def renderFields (depth : Nat) : List (String × Json) → String
  | [] => ""
  | [(k, v)] => breakAt depth ++ escape k ++ ": " ++ renderAt depth v
  | (k, v) :: fs => breakAt depth ++ escape k ++ ": " ++ renderAt depth v ++ "," ++
      renderFields depth fs

end

/-- The text of a value. -/
def render (j : Json) : String :=
  renderAt 0 j

end Json

end Polyloft
