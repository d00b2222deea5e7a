import Polyloft.Value
import Polyloft.Yaml.Node
import Polyloft.Yaml.Scalar

/-!
# Polyloft.Yaml

Structured data from YAML text. The keys of a mapping are scalars; a field that is given twice has
the place of the first and the value of the last. The key `<<` brings in the fields of another
mapping, which the mapping's own fields override.

Data is read in two steps. First every mapping gets the fields that it merges in; a scalar that
stands for nothing stays where it is. Then the data is put together. Of several faults the one that
lies in the fewest collections is reported, and of those the first.
-/

namespace Polyloft

/-- What a scalar stands for, or why it stands for nothing. -/
abbrev ScalarReading := Except Yaml.YamlError Scalar

/-- What a node stands for, with the fields that its mappings merge in. A mapping that merges in
what is no mapping is `broken`. -/
inductive YamlData where
  | scalar (s : ScalarReading)
  | sequence (items : List YamlData)
  | mapping (fields : List (ScalarReading × YamlData))
  | broken

namespace YamlData

/-! ### Merging -/

/-- A scalar as a value. The texts of the two special keys have no meaning as values. -/
def scalarValue (text : List Char) (plain : Bool) : ScalarReading :=
  if !plain then .ok (.str (String.ofList text))
  else if text = ['='] || text = ['<', '<'] then .error .malformed
  else Yaml.plainScalar text

/-- The key that brings in other fields. -/
def isMergeKey : YamlNode → Bool
  | .scalar text plain => plain && text = ['<', '<']
  | _ => false

/-- A node as a key, which has to be a scalar. -/
def keyValue : YamlNode → ScalarReading
  | .scalar text plain => if text = ['='] then .ok (.str "=") else scalarValue text plain
  | _ => .error .malformed

/-- The fields that a merged value brings in; of several mappings the earlier ones override. -/
def mergedFields? : YamlData → Option (List (ScalarReading × YamlData))
  | .mapping fields => some fields
  | .sequence items =>
    items.foldr
      (fun item rest =>
        match item, rest with
        | .mapping fields, some rest => some (rest ++ fields)
        | _, _ => none) (some [])
  | _ => none

mutual

/-- What a node stands for. -/
def ofNode : YamlNode → YamlData
  | .scalar text plain => .scalar (scalarValue text plain)
  | .sequence items => .sequence (ofNodes items)
  | .mapping fields =>
    match ofFields fields with
    | some (merged, own) => .mapping (merged ++ own)
    | none => .broken

/-- What nodes stand for. -/
def ofNodes : List YamlNode → List YamlData
  | [] => []
  | n :: ns => ofNode n :: ofNodes ns

/-- The fields of a mapping: those that are merged in, and its own. -/
def ofFields : List (YamlNode × YamlNode) →
    Option (List (ScalarReading × YamlData) × List (ScalarReading × YamlData))
  | [] => some ([], [])
  | (key, n) :: fields =>
    let data := ofNode n
    match ofFields fields with
    | none => none
    | some (merged, own) =>
      if isMergeKey key then (mergedFields? data).map fun brought => (brought ++ merged, own)
      else some (merged, (keyValue key, data) :: own)

end

/-! ### Reading -/

/-- A fault and how many collections it lies in. -/
structure Fault where
  depth : Nat
  error : Yaml.YamlError
deriving DecidableEq, Repr

/-- Two readings, of which both have to succeed. Of two faults the one that lies less deep counts,
and the first if they lie equally deep. -/
def both {α β γ : Type} (combine : α → β → γ) (a : Except Fault α) (b : Except Fault β) :
    Except Fault γ :=
  match a, b with
  | .ok a, .ok b => .ok (combine a b)
  | .error e, .ok _ => .error e
  | .ok _, .error f => .error f
  | .error e, .error f => .error (if f.depth < e.depth then f else e)

mutual

/-- The value of data that lies in `depth` collections. -/
def value (depth : Nat) : YamlData → Except Fault Value
  | .scalar s => (s.map Value.scalar).mapError (⟨depth, ·⟩)
  | .sequence items => (values (depth + 1) items).map .list
  | .mapping fields =>
    (fieldValues (depth + 1) fields).map fun fs => .object (collectFields Scalar.same fs)
  | .broken => .error ⟨depth + 1, .malformed⟩

/-- The values of items. -/
def values (depth : Nat) : List YamlData → Except Fault (List Value)
  | [] => .ok []
  | d :: ds => both List.cons (value depth d) (values depth ds)

/-- The names and values of fields. -/
def fieldValues (depth : Nat) :
    List (ScalarReading × YamlData) → Except Fault (List (Scalar × Value))
  | [] => .ok []
  | (key, d) :: fields =>
    both List.cons (both Prod.mk (key.mapError (⟨depth, ·⟩)) (value depth d))
      (fieldValues depth fields)

end

end YamlData

/-- The data of a YAML text; an empty text holds nothing. -/
def Value.ofYaml (text : List Char) : Except Yaml.YamlError Value := do
  match ← YamlNode.ofText? text with
  | none => return .null
  | some n => ((YamlData.ofNode n).value 0).mapError YamlData.Fault.error

end Polyloft
