import Polyloft.Yaml.Token

/-!
# Polyloft.Yaml.Node

The structure of a YAML text: scalars, sequences and mappings. A text holds one document, which may
be empty. Every function takes the tokens that are left and returns those after what it read;
`fuel` bounds the depth of nesting and is more than the number of tokens.
-/

namespace Polyloft

/-- A YAML node. A scalar is `plain` when it is written without quotes. -/
inductive YamlNode where
  | scalar (text : List Char) (plain : Bool)
  | sequence (items : List YamlNode)
  | mapping (fields : List (YamlNode × YamlNode))
deriving Repr, Inhabited

namespace YamlNode

/-- A scalar of which nothing is written. -/
def empty : YamlNode := .scalar [] true

/-- Does one of `ts` come next? -/
def comes (ts : List YamlToken) (tokens : List YamlToken) : Bool :=
  tokens.head?.any (ts.contains ·)

mutual

/-- A node. `block` allows block collections, `indentless` items at the column of their key. -/
def node (fuel : Nat) (block indentless : Bool) (tokens : List YamlToken) :
    Except Yaml.YamlError (YamlNode × List YamlToken) :=
  match fuel with
  | 0 => .error .malformed
  | fuel + 1 =>
    match tokens with
    | .scalar text plain :: rest => .ok (.scalar text plain, rest)
    | .flowSequenceStart :: rest => do
      let (items, rest) ← flowItems fuel true rest
      return (.sequence items, rest)
    | .flowMappingStart :: rest => do
      let (fields, rest) ← flowFields fuel true rest
      return (.mapping fields, rest)
    | .blockEntry :: rest =>
      if indentless then do
        let (items, rest) ← indentlessItems fuel (.blockEntry :: rest)
        return (.sequence items, rest)
      else .error .malformed
    | .sequenceStart :: rest =>
      if block then do
        let (items, rest) ← blockItems fuel rest
        return (.sequence items, rest)
      else .error .malformed
    | .mappingStart :: rest =>
      if block then do
        let (fields, rest) ← blockFields fuel rest
        return (.mapping fields, rest)
      else .error .malformed
    | _ => .error .malformed

/-- A node, or nothing if one of `stops` comes next. -/
def nodeUnless (fuel : Nat) (stops : List YamlToken) (block indentless : Bool)
    (tokens : List YamlToken) : Except Yaml.YamlError (YamlNode × List YamlToken) :=
  match fuel with
  | 0 => .error .malformed
  | fuel + 1 =>
    if comes stops tokens then .ok (empty, tokens) else node fuel block indentless tokens

/-- The items of a block sequence, through its end. -/
def blockItems (fuel : Nat) (tokens : List YamlToken) :
    Except Yaml.YamlError (List YamlNode × List YamlToken) :=
  match fuel with
  | 0 => .error .malformed
  | fuel + 1 =>
    match tokens with
    | .blockEntry :: rest => do
      let (item, rest) ← nodeUnless fuel [.blockEntry, .blockEnd] true false rest
      let (items, rest) ← blockItems fuel rest
      return (item :: items, rest)
    | .blockEnd :: rest => .ok ([], rest)
    | _ => .error .malformed

/-- The items of a sequence at the column of its key. -/
def indentlessItems (fuel : Nat) (tokens : List YamlToken) :
    Except Yaml.YamlError (List YamlNode × List YamlToken) :=
  match fuel with
  | 0 => .error .malformed
  | fuel + 1 =>
    match tokens with
    | .blockEntry :: rest => do
      let (item, rest) ← nodeUnless fuel [.blockEntry, .key, .value, .blockEnd] true false rest
      let (items, rest) ← indentlessItems fuel rest
      return (item :: items, rest)
    | rest => .ok ([], rest)

/-- The fields of a block mapping, through its end. -/
def blockFields (fuel : Nat) (tokens : List YamlToken) :
    Except Yaml.YamlError (List (YamlNode × YamlNode) × List YamlToken) :=
  match fuel with
  | 0 => .error .malformed
  | fuel + 1 =>
    match tokens with
    | .key :: rest => do
      let stops := [.key, .value, .blockEnd]
      let (key, rest) ← nodeUnless fuel stops true true rest
      let (value, rest) ← match rest with
        | .value :: rest => nodeUnless fuel stops true true rest
        | rest => .ok (empty, rest)
      let (fields, rest) ← blockFields fuel rest
      return ((key, value) :: fields, rest)
    | .blockEnd :: rest => .ok ([], rest)
    | _ => .error .malformed

/-- The items of a flow sequence, through its end. A key stands for a mapping of one field. -/
def flowItems (fuel : Nat) (first : Bool) (tokens : List YamlToken) :
    Except Yaml.YamlError (List YamlNode × List YamlToken) :=
  match fuel with
  | 0 => .error .malformed
  | fuel + 1 =>
    match tokens with
    | .flowSequenceEnd :: rest => .ok ([], rest)
    | tokens => do
      let tokens ← match first, tokens with
        | true, tokens => .ok tokens
        | false, .flowEntry :: rest => .ok rest
        | false, _ => .error .malformed
      match tokens with
      | .flowSequenceEnd :: rest => return ([], rest)
      | .key :: rest =>
        let (field, rest) ← flowField fuel .flowSequenceEnd rest
        let (items, rest) ← flowItems fuel false rest
        return (.mapping [field] :: items, rest)
      | tokens =>
        let (item, rest) ← node fuel false false tokens
        let (items, rest) ← flowItems fuel false rest
        return (item :: items, rest)

/-- The fields of a flow mapping, through its end. A node that is no key has no value. -/
def flowFields (fuel : Nat) (first : Bool) (tokens : List YamlToken) :
    Except Yaml.YamlError (List (YamlNode × YamlNode) × List YamlToken) :=
  match fuel with
  | 0 => .error .malformed
  | fuel + 1 =>
    match tokens with
    | .flowMappingEnd :: rest => .ok ([], rest)
    | tokens => do
      let tokens ← match first, tokens with
        | true, tokens => .ok tokens
        | false, .flowEntry :: rest => .ok rest
        | false, _ => .error .malformed
      match tokens with
      | .flowMappingEnd :: rest => return ([], rest)
      | .key :: rest =>
        let (field, rest) ← flowField fuel .flowMappingEnd rest
        let (fields, rest) ← flowFields fuel false rest
        return (field :: fields, rest)
      | tokens =>
        let (key, rest) ← node fuel false false tokens
        let (fields, rest) ← flowFields fuel false rest
        return ((key, empty) :: fields, rest)

/-- A field after its key token, in a flow collection that ends with `stop`. -/
def flowField (fuel : Nat) (stop : YamlToken) (tokens : List YamlToken) :
    Except Yaml.YamlError ((YamlNode × YamlNode) × List YamlToken) :=
  match fuel with
  | 0 => .error .malformed
  | fuel + 1 => do
    let (key, rest) ← nodeUnless fuel [.value, .flowEntry, stop] false false tokens
    let (value, rest) ← match rest with
      | .value :: rest => nodeUnless fuel [.flowEntry, stop] false false rest
      | rest => .ok (empty, rest)
    return ((key, value), rest)

end

/-- The tokens after document ends. -/
def dropDocumentEnds (tokens : List YamlToken) : List YamlToken :=
  tokens.dropWhile (· == .documentEnd)

/-- The document of a text, if it is not empty. -/
def document? (tokens : List YamlToken) : Except Yaml.YamlError (Option YamlNode) :=
  let fuel := 4 * tokens.length + 4
  let finish (n : YamlNode) (rest : List YamlToken) : Except Yaml.YamlError (Option YamlNode) :=
    if (dropDocumentEnds rest).isEmpty then .ok (some n) else .error .malformed
  match tokens with
  | [] => .ok none
  | .documentStart :: rest =>
    if rest.isEmpty || comes [.documentStart, .documentEnd] rest then finish empty rest
    else do
      let (n, rest) ← node fuel true false rest
      finish n rest
  | tokens => do
    let (n, rest) ← node fuel true false tokens
    finish n rest

/-- The document of a text, if it is not empty. -/
def ofText? (text : List Char) : Except Yaml.YamlError (Option YamlNode) := do
  document? (← Yaml.tokens text)

end YamlNode

end Polyloft
