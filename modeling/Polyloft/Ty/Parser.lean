import Polyloft.Text.Blank
import Polyloft.Text.Word
import Polyloft.Ty

/-!
# Polyloft.Ty.Parser

Written types. The grammar, with `ws` for spaces and tabs:

```text
type   ::= single (ws "|" ws single)*
single ::= base "?"?
base   ::= name (ws args)?
args   ::= "<" ws list ws ">"  |  "[" ws list ws "]"
list   ::= type (ws "," ws type)*
```

Alternatives are tried in order and repetitions take as much as they can; a part that fails is
left out if it is optional. The only recursion of the grammar is from `args` back to `type`, so
the parser for a `base` takes the parser for its arguments, and `Ty.parserAt` bounds the depth of
that nesting. A text of `n` characters cannot nest deeper than `n`.
-/

namespace Polyloft

open Polyloft.Text

/-- A parser consumes a part of the text and returns the rest, or fails. -/
abbrev Parser (α : Type) := List Char → Option (α × List Char)

namespace Parser

variable {α : Type}

/-- A space or a tab. -/
def isGap (c : Char) : Bool :=
  c == ' ' || c == '\t'

/-- Skips spaces and tabs. -/
def gap (cs : List Char) : List Char :=
  cs.dropWhile isGap

/-- The character `c`. -/
def char (c : Char) : Parser Unit
  | d :: cs => if d = c then some ((), cs) else none
  | [] => none

/-- A character that may follow the first one of a name in a type. -/
def isNameRest (c : Char) : Bool :=
  c.isAlphanum || c == '_'

/-- An ASCII name. -/
def name : Parser String
  | c :: cs =>
    if isNameStart c then
      some (String.ofList (c :: cs.takeWhile isNameRest), cs.dropWhile isNameRest)
    else none
  | [] => none

/-- `p` as often as it succeeds and consumes something. -/
def many (p : Parser α) (cs : List Char) : List α × List Char :=
  match p cs with
  | none => ([], cs)
  | some (a, rest) =>
    if rest.length < cs.length then
      let more := many p rest
      (a :: more.1, more.2)
    else ([], cs)
termination_by cs.length

/-- `p` after the separator `sep`, with gaps around the separator. -/
def after (sep : Char) (p : Parser α) : Parser α := fun cs =>
  (char sep (gap cs)).bind fun r => p (gap r.2)

/-- One or more `p`, separated by `sep`. -/
def sepBy (sep : Char) (p : Parser α) : Parser (List α) := fun cs =>
  (p cs).map fun r =>
    let more := many (after sep p) r.2
    (r.1 :: more.1, more.2)

end Parser

namespace Ty

open Polyloft.Parser

/-- Arguments between the brackets `opening` and `closing`, each read by `inner`. -/
def bracketParser (opening closing : Char) (inner : Parser Ty) : Parser (List Ty) := fun cs =>
  (char opening cs).bind fun r =>
    (sepBy ',' inner (gap r.2)).bind fun args =>
      (char closing (gap args.2)).map fun r => (args.1, r.2)

/-- Arguments in angle or square brackets. -/
def argsParser (inner : Parser Ty) : Parser (List Ty) := fun cs =>
  (bracketParser '<' '>' inner cs).or (bracketParser '[' ']' inner cs)

/-- The type with a given name and arguments; `Any` takes none. -/
def ofName (name : String) (args : List Ty) : Ty :=
  if name = "Any" then .any else .named name args

/-- A name, its arguments if there are any, and a question mark that is read over. -/
def singleParser (inner : Parser Ty) : Parser Ty := fun cs =>
  (Parser.name cs).map fun r =>
    let base : Ty × List Char :=
      match argsParser inner (gap r.2) with
      | some args => (ofName r.1 args.1, args.2)
      | none => (ofName r.1 [], r.2)
    match char '?' base.2 with
    | some rest => (base.1, rest.2)
    | none => base

/-- Alternatives joined into one type. -/
def unionParser (inner : Parser Ty) : Parser Ty := fun cs =>
  (sepBy '|' (singleParser inner) cs).map fun r => (unify r.1, r.2)

/-- Types whose arguments nest at most `depth` deep. -/
def parserAt : Nat → Parser Ty
  | 0 => unionParser fun _ => none
  | depth + 1 => unionParser (parserAt depth)

/-- A type at the head of the text. -/
def parser : Parser Ty := fun cs => parserAt cs.length cs

/-- A text that is a type as a whole. -/
def parse? (cs : List Char) : Option Ty :=
  match parser cs with
  | some (t, []) => some t
  | _ => none

/-- The type a text stands for, blanks around it aside; `Any` if it is not a type. -/
def parse (cs : List Char) : Ty :=
  (parse? (strip cs)).getD .any

/-- The type a string stands for. -/
def ofString (s : String) : Ty :=
  parse s.toList

end Ty

end Polyloft
