import Polyloft.Double
import Polyloft.Text.Digit
import Polyloft.Text.Quoted
import Polyloft.Timestamp

/-!
# Polyloft.Value

Structured data from outside: catalogs and editor settings. Fields of an object keep the order in
which they were written, and the name of a field is any scalar.
-/

namespace Polyloft

/-! ### Scalars -/

/-- Data without parts. -/
inductive Scalar where
  | null
  | bool (b : Bool)
  | int (n : Int)
  | real (x : Double)
  | str (s : String)
  | date (d : Date)
  | timestamp (t : Timestamp)
deriving DecidableEq, Repr, Inhabited

namespace Scalar

/-- The name of a scalar's kind in messages. -/
def kindName : Scalar → String
  | .null => "NoneType"
  | .bool _ => "bool"
  | .int _ => "int"
  | .real _ => "float"
  | .str _ => "str"
  | .date _ => "date"
  | .timestamp _ => "datetime"

/-- Does the scalar count as given? Nothing, `false`, zero and the empty text do not. -/
def isGiven : Scalar → Bool
  | .null => false
  | .bool b => b
  | .int n => n != 0
  | .real x => !x.isZero
  | .str s => s != ""
  | .date _ => true
  | .timestamp _ => true

/-- The exact value of a scalar that is a finite number. The truth values are one and zero. -/
def exactValue? : Scalar → Option (Int × Nat)
  | .bool b => some (if b then 1 else 0, 1)
  | .int n => some (n, 1)
  | .real x => x.exactValue?
  | _ => none

/-- Do two scalars name the same field? Numbers do when they are equal, however they are written,
and points in time when they are the same. -/
def same (a b : Scalar) : Bool :=
  match a, b with
  | .timestamp s, .timestamp t => s.same t
  | a, b =>
    match a.exactValue?, b.exactValue? with
    | some (m, d), some (n, e) => m * (e : Int) == n * (d : Int)
    | none, none => a == b
    | _, _ => false

/-- A scalar inside of a list or object: texts are quoted there, and dates show their parts. -/
def renderNested : Scalar → String
  | .null => "None"
  | .bool b => if b then "True" else "False"
  | .int n => toString n
  | .real x => x.render
  | .str s => Text.quoted s
  | .date d => d.renderNested
  | .timestamp t => t.renderNested

/-- A scalar as text by itself. -/
def text : Scalar → String
  | .str s => s
  | .date d => d.render
  | .timestamp t => t.render
  | s => s.renderNested

/-- Can the scalar be written? A whole number of too many digits cannot. -/
def isWritable : Scalar → Bool
  | .int n => n.natAbs < Nat.pow 10 Text.maxIntegerDigits
  | _ => true

end Scalar

/-! ### Values -/

/-- Structured data. -/
inductive Value where
  | scalar (s : Scalar)
  | list (items : List Value)
  | object (fields : List (Scalar × Value))
deriving Repr, Inhabited

namespace Value

/-- Nothing. -/
@[match_pattern]
abbrev null : Value := .scalar .null

/-- A truth value. -/
@[match_pattern]
abbrev bool (b : Bool) : Value := .scalar (.bool b)

/-- A whole number. -/
@[match_pattern]
abbrev int (n : Int) : Value := .scalar (.int n)

/-- A text. -/
@[match_pattern]
abbrev str (s : String) : Value := .scalar (.str s)

/-- The name of a value's kind in messages. -/
def kindName : Value → String
  | .scalar s => s.kindName
  | .list _ => "list"
  | .object _ => "dict"

/-- Does the value count as given? Scalars that do not and empty values do not. -/
def isGiven : Value → Bool
  | .scalar s => s.isGiven
  | .list items => !items.isEmpty
  | .object fields => !fields.isEmpty

mutual

/-- A value inside of a list or object. -/
def renderNested : Value → String
  | .scalar s => s.renderNested
  | .list items => "[" ++ renderItems items ++ "]"
  | .object fields => "\x7b" ++ renderFields fields ++ "\x7d"

/-- The items of a list, separated by commas. -/
def renderItems : List Value → String
  | [] => ""
  | [v] => renderNested v
  | v :: vs => renderNested v ++ ", " ++ renderItems vs

/-- The fields of an object, separated by commas. -/
def renderFields : List (Scalar × Value) → String
  | [] => ""
  | [(k, v)] => k.renderNested ++ ": " ++ renderNested v
  | (k, v) :: fs => k.renderNested ++ ": " ++ renderNested v ++ ", " ++ renderFields fs

end

/-- A value as text by itself. -/
def text : Value → String
  | .scalar s => s.text
  | v => v.renderNested

mutual

/-- Can the value be written? All scalars in it have to be writable. -/
def isWritable : Value → Bool
  | .scalar s => s.isWritable
  | .list items => areWritable items
  | .object fields => areFieldsWritable fields

/-- Can all items be written? -/
def areWritable : List Value → Bool
  | [] => true
  | v :: vs => isWritable v && areWritable vs

/-- Can all fields be written? -/
def areFieldsWritable : List (Scalar × Value) → Bool
  | [] => true
  | (k, v) :: fs => k.isWritable && isWritable v && areFieldsWritable fs

end

/-- The field of an object whose name is the given text. -/
def get? (v : Value) (key : String) : Option Value :=
  match v with
  | .object fields => fields.lookup (.str key)
  | _ => none

end Value

/-! ### Fields -/

/-- Sets a field: a name keeps its first place and its first form, and takes its last value. -/
def setField {κ α : Type} (same : κ → κ → Bool) (fields : List (κ × α)) (key : κ) (value : α) :
    List (κ × α) :=
  match fields with
  | [] => [(key, value)]
  | f :: fs =>
    if same f.1 key then (f.1, value) :: fs else f :: setField same fs key value

/-- Fields in the order of their first places, each with its last value. -/
def collectFields {κ α : Type} (same : κ → κ → Bool) (fields : List (κ × α)) : List (κ × α) :=
  fields.foldl (fun acc f => setField same acc f.1 f.2) []

end Polyloft
