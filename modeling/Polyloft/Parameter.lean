import Polyloft.Text.Blank
import Polyloft.Text.Identifier
import Polyloft.Text.Split
import Polyloft.Text.Word
import Polyloft.Ty.Parser

/-!
# Polyloft.Parameter

Parameter lists, as written between the parentheses of a header and in the catalog:
`...values: Any, end?: Int, size: Int = 4`. Text is cut at the commas outside brackets and string
literals, and each piece is read as one parameter. A piece that does not follow the grammar still
yields a parameter if a name can be recovered from it, because headers are often read while they
are being written.
-/

namespace Polyloft

open Polyloft.Text

/-! ### Cutting at separators -/

/-- Where a scan stands: open brackets, open angle brackets, the quote of an open string literal,
and the character before. -/
structure Nesting where
  depth : Nat := 0
  angle : Nat := 0
  quote : Option Char := none
  previous : Option Char := none
deriving DecidableEq, Repr

namespace Nesting

/-- The state after a character outside string literals. Angle brackets nest only after a word
character, which keeps `a < b` from opening a bracket. -/
def step (s : Nesting) (c : Char) : Nesting :=
  let s' := { s with previous := some c }
  if c = '"' ∨ c = '\'' then { s' with quote := some c }
  else if c ∈ ['(', '[', '{'] then { s' with depth := s.depth + 1 }
  else if c ∈ [')', ']', '}'] then { s' with depth := s.depth - 1 }
  else if c = '<' ∧ s.previous.any isWord then { s' with angle := s.angle + 1 }
  else if c = '>' then { s' with angle := s.angle - 1 }
  else s'

/-- Does `c`, met in this state outside string literals, have a meaning of its own for nesting? -/
def marks (s : Nesting) (c : Char) : Bool :=
  c ∈ ['"', '\'', '(', '[', '{', ')', ']', '}'] || (c == '<' && s.previous.any isWord) ||
    (c == '>' && s.angle != 0)

/-- May the text be cut at `c`? Only outside literals and brackets, and only at a separator that
is not itself a bracket or quote there. -/
def cutsAt (s : Nesting) (isSeparator : Char → Bool) (c : Char) : Bool :=
  isSeparator c && !s.marks c && s.depth == 0 && s.angle == 0

end Nesting

/-- The pieces of a text between its separators, the first of them already under way in the given
state. -/
def cutFrom (isSeparator : Char → Bool) (s : Nesting) : List Char → List (List Char)
  | [] => [[]]
  | c :: cs =>
    match s.quote with
    | some q =>
      if c = '\\' then
        match cs with
        | [] => [[c]]
        | d :: ds => consPiece c (consPiece d
            (cutFrom isSeparator { s with previous := some d } ds))
      else
        let quote := if c = q then none else some q
        consPiece c (cutFrom isSeparator { s with quote, previous := some c } cs)
    | none =>
      if s.cutsAt isSeparator c then
        [] :: cutFrom isSeparator { s with previous := some c } cs
      else consPiece c (cutFrom isSeparator (s.step c) cs)

/-- Pairs each piece with its position, one separator standing between neighbours. -/
def placePieces (offset : Nat) : List (List Char) → List (Nat × List Char)
  | [] => []
  | piece :: pieces => (offset, piece) :: placePieces (offset + piece.length + 1) pieces

/-- Cuts a text at the separators outside brackets and string literals, with the position of each
piece. -/
def splitTopLevel (isSeparator : Char → Bool) (cs : List Char) : List (Nat × List Char) :=
  placePieces 0 (cutFrom isSeparator {} cs)

/-! ### Parameters -/

/-- A declared parameter. `column` is where its name stands, for one that was read as part of a
list. -/
structure Parameter where
  name : String
  typeText : Option String := none
  type : Ty := .any
  variadic : Bool := false
  optional : Bool := false
  defaultText : Option String := none
  column : Option Nat := none
deriving Repr, Inhabited

namespace Parameter

/-- Was a type written for the parameter? -/
def isTyped (p : Parameter) : Bool :=
  p.typeText.isSome

/-- The name with the marks of a variadic and of an optional parameter. -/
def renderName (p : Parameter) : String :=
  (if p.variadic then "..." else "") ++ p.name ++ (if p.optional then "?" else "")

/-- The parameter as signatures show it, without its default. -/
def render (p : Parameter) : String :=
  match p.typeText with
  | none => p.renderName
  | some text => if text = "" then p.renderName else p.renderName ++ ": " ++ text

/-- The part of `cs` that was consumed when `rest` is left over. -/
def consumed (cs rest : List Char) : List Char :=
  cs.take (cs.length - rest.length)

/-- A type after a colon: its text and meaning. -/
def annotationParser : Parser (String × Ty) := fun cs =>
  (Parser.char ':' cs).bind fun r =>
    let start := Parser.gap r.2
    (Ty.parser start).map fun t => ((String.ofList (consumed start t.2), t.1), t.2)

/-- A default after an equals sign: everything that is left. -/
def defaultParser : Parser String := fun cs =>
  (Parser.char '=' cs).map fun r => (String.ofList (strip (Parser.gap r.2)), [])

/-- An optional part, with what is left after it. -/
def optionally {α : Type} (p : Parser α) (cs : List Char) : Option α × List Char :=
  match p cs with
  | some (a, rest) => (some a, rest)
  | none => (none, cs)

/-- A parameter that follows the grammar `"..."? name "?"? (":" type)? ("=" default)?` as a
whole. -/
def parseGrammar? (cs : List Char) : Option Parameter :=
  let dots : Bool × List Char :=
    match cs with
    | '.' :: '.' :: '.' :: rest => (true, rest)
    | _ => (false, cs)
  (Parser.name dots.2).bind fun name =>
    let mark := optionally (Parser.char '?') name.2
    let type := optionally annotationParser (Parser.gap mark.2)
    let default := optionally defaultParser (Parser.gap type.2)
    if default.2 = [] then
      some
        { name := name.1
          typeText := type.1.map Prod.fst
          type := (type.1.map Prod.snd).getD .any
          variadic := dots.1
          optional := mark.1.isSome
          defaultText := default.1 }
    else none

/-- The name that a malformed parameter seems to declare. -/
def recoverName (cs : List Char) : List Char :=
  let head := (cs.dropWhile (· == '.')).takeWhile fun c => c != ':' && c != '='
  dropEndWhile (· == '?') (strip head)

/-- A parameter of which only the name could be made out. -/
def recover? (cs : List Char) : Option Parameter :=
  let name := recoverName cs
  if isIdentifier name then
    some { name := String.ofList name, variadic := ['.', '.', '.'].isPrefixOf cs }
  else none

/-- One parameter, if at least a name can be made out. -/
def parse? (cs : List Char) : Option Parameter :=
  let text := strip cs
  (parseGrammar? text).or (recover? text)

/-- The parameter written in a piece at `column`, placed at its name. -/
def parseAt? (column : Nat) (piece : List Char) : Option Parameter :=
  (parse? piece).map fun p =>
    { p with column := some (column + leadingBlanks piece + if p.variadic then 3 else 0) }

/-- The parameters of a list whose text starts at `column`. -/
def parseList (cs : List Char) (column : Nat) : List Parameter :=
  (splitTopLevel (· == ',') cs).filterMap fun piece => parseAt? (column + piece.1) piece.2

/-- Parameters separated by commas, as signatures show them. -/
def renderList (ps : List Parameter) : String :=
  ", ".intercalate (ps.map render)

end Parameter

end Polyloft
