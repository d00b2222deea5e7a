import Polyloft.Declaration.Mutability
import Polyloft.Text.Cursor
import Polyloft.Text.Split
import Polyloft.Token

/-!
# Polyloft.Declaration.Shape

The shapes of lines that declare something. A shape is read from the masked text of a line, in
which nothing inside a comment or a string literal can be taken for code, and reports where the
parts of the declaration stand. Each reader takes the longest run wherever a run is repeated, and
the shortest part that lets the rest of the line fit where a part is free text.
-/

namespace Polyloft.Shape

open Polyloft.Text

/-! ### Common parts -/

/-- One annotation and the blanks after it. -/
def marker? (c : Cursor) : Option Cursor :=
  ((c.literal? "@").bind (·.run? isWord isWord)).bind fun r => r.2.blanks?

/-- One modifier and the blanks after it. -/
def modifier? (c : Cursor) : Option Cursor :=
  modifiers.findSome? c.word?

/-- Behind blanks, annotations and modifiers. -/
def skipPrefix (c : Cursor) : Cursor :=
  (c.skipBlanks.many marker?).many modifier?

/-- Behind an optional sign. -/
def optionally (c : Cursor) (sign : String) : Cursor :=
  (c.literal? sign).getD c

/-- Nothing but an optional colon is left, blanks aside. -/
def endsWithColon (cs : List Char) : Bool :=
  (optionally (Cursor.ofText cs).skipBlanks ":").skipBlanks.atEnd

/-- Only a closing parenthesis and a colon are left, both optional, blanks aside. -/
def endsCatch (cs : List Char) : Bool :=
  endsWithColon (optionally (Cursor.ofText cs).skipBlanks ")").rest

/-- The span from a cursor to the end of the text, without the blanks at either end. -/
def trimmedSpan (c : Cursor) (length : Nat) : Span :=
  let text := c.rest.take length
  let start := c.pos + leadingBlanks text
  ⟨start, start + (strip text).length⟩

/-! ### Headers -/

/-- A name behind one of the given words. -/
def wordThenName? (words : List String) (cs : List Char) : Option (String × Span × Cursor) :=
  let c := skipPrefix (Cursor.ofText cs)
  words.findSome? fun w => ((c.word? w).bind Cursor.name?).map fun r => (w, r.1, r.2)

/-- `def name`: the name, and the cursor behind it. -/
def function? (cs : List Char) : Option (Span × Cursor) :=
  (wordThenName? ["def"] cs).map Prod.snd

/-- `class Name` and its like: the word, the name, and the cursor behind it. -/
def classLike? (cs : List Char) : Option (String × Span × Cursor) :=
  wordThenName? ["class", "enum", "record", "interface"] cs

/-- `Name(` with an upper-case first letter: the name, and the cursor behind it. -/
def constructor? (cs : List Char) : Option (Span × Cursor) :=
  ((skipPrefix (Cursor.ofText cs)).run? Char.isUpper isWord).filter fun r =>
    (r.2.skipBlanks.literal? "(").isSome

/-- `name(` with a lower-case first letter or an underscore: the name, and the cursor behind
it. -/
def signature? (cs : List Char) : Option (Span × Cursor) :=
  ((Cursor.ofText cs).skipBlanks.run? (fun c => c.isLower || c == '_') isWord).filter fun r =>
    (r.2.skipBlanks.literal? "(").isSome

/-! ### Variables -/

/-- A line that declares a variable. `declarator` and `more` are the words before the name, and
`written` is where they stand, with the blanks after them. -/
structure Variable where
  declarator : Mutability
  more : List Mutability
  written : Span
  name : Span
  type : Option Span
  initializer : Option Span
deriving DecidableEq, Repr

/-- One of the words that declare a variable, and the blanks after it. -/
def declarator? (c : Cursor) : Option (Mutability × Cursor) :=
  [Mutability.var, .let, .const, .final].findSome? fun w => (c.word? w.keyword).map (w, ·)

/-- The words that declare a variable, each with the cursor behind it and its blanks. -/
def declarators (c : Cursor) : List (Mutability × Cursor) :=
  match declarator? c with
  | none => []
  | some (w, c') =>
    if c'.rest.length < c.rest.length then (w, c') :: declarators c' else [(w, c')]
termination_by c.rest.length

/-- An equals sign that is not part of `==`. -/
def assignment? (c : Cursor) : Option Cursor :=
  (c.literal? "=").filter fun c' => (c'.literal? "=").isNone

/-- The initializer, or the end of the line: the outer option fails if the line goes on in any
other way. -/
def initializer? (c : Cursor) : Option (Option Span) :=
  let c := c.skipBlanks
  match assignment? c with
  | some c' => some (some (trimmedSpan c' c'.rest.length))
  | none => if c.atEnd then some none else none

/-- The type and initializer behind the name of a variable. -/
def variableTail? (c : Cursor) : Option (Option Span × Option Span) :=
  match c.skipBlanks.literal? ":" with
  | none => (initializer? c).map (none, ·)
  | some c' =>
    let length := (c'.rest.takeWhile (· != '=')).length
    if length = 0 then none
    else (initializer? (c'.advance length)).map (some (trimmedSpan c' length), ·)

/-- The variable that is declared if the given words are its declarators. -/
def variableWith? (start : Nat) (ds : List (Mutability × Cursor)) : Option Variable :=
  match ds with
  | [] => none
  | d :: more =>
    let behind := (more.getLastD d).2
    behind.name?.bind fun name =>
      (variableTail? name.2).map fun tail =>
        ⟨d.1, more.map Prod.fst, ⟨start, behind.pos⟩, name.1, tail.1, tail.2⟩

/-- A variable. As many words as possible are taken for declarators; if the line does not fit
then, the last of them is taken for the name. -/
def variableLine? (cs : List Char) : Option Variable :=
  let c := skipPrefix (Cursor.ofText cs)
  let ds := declarators c
  (List.range ds.length).reverse.findSome? fun n => variableWith? c.pos (ds.take (n + 1))

/-! ### Loop variables and caught errors -/

/-- A loop header: one or two variables, and what is looped over. -/
structure Loop where
  first : Span
  second : Option Span
  iterable : Span
deriving DecidableEq, Repr

/-- A `where` between blanks. -/
def startsWhere (cs : List Char) : Bool :=
  ((Cursor.ofText cs).blanks?.bind (·.word? "where")).isSome

/-- What is looped over, given the cursor behind `in`: the shortest text before a `where`, or
before a final colon. -/
def iterable? (c : Cursor) : Option Span :=
  c.blanks?.bind fun c' =>
    if c'.atEnd then if c.pos + 1 < c'.pos then some ⟨c'.pos - 1, c'.pos⟩ else none
    else
      let n := shortest (fun rest => startsWhere rest || endsWithColon rest) c'.rest
      some ⟨c'.pos, c'.pos + n⟩

/-- A second name after a comma. -/
def commaName? (c : Cursor) : Option (Span × Cursor) :=
  (c.skipBlanks.literal? ",").bind fun c' => c'.skipBlanks.name?

/-- `for x in xs:` or `for k, v in xs:`. -/
def loop? (cs : List Char) : Option Loop :=
  ((Cursor.ofText cs).skipBlanks.word? "for").bind fun c =>
    c.name?.bind fun first =>
      let second := commaName? first.2
      let behind := (second.map Prod.snd).getD first.2
      (behind.blanks?.bind (·.literal? "in")).bind fun c' =>
        (iterable? c').map fun iterable => ⟨first.1, second.map Prod.fst, iterable⟩

/-- A character of the type of a caught error, behind its first one. -/
def isCaughtTypeChar (c : Char) : Bool :=
  isWord c || c ∈ ['<', '>', '[', ']', ',', ' ']

/-- The length of the shortest run of characters of a type behind which a catch line ends. -/
def caughtTypeLength? : List Char → Option Nat
  | [] => if endsCatch [] then some 0 else none
  | c :: cs =>
    if endsCatch (c :: cs) then some 0
    else if isCaughtTypeChar c then (caughtTypeLength? cs).map (· + 1)
    else none

/-- The type after the colon behind a caught error. -/
def caughtType? (c : Cursor) : Option Span :=
  (c.skipBlanks.literal? ":").bind fun c' =>
    let c' := c'.skipBlanks
    match c'.rest with
    | [] => none
    | d :: ds =>
      if isNameStart d then
        (caughtTypeLength? ds).map fun n => ⟨c'.pos, c'.pos + 1 + n⟩
      else none

/-- `catch e`, `catch (e: Type):` and the like: the name and the type. -/
def caught? (cs : List Char) : Option (Span × Option Span) :=
  ((Cursor.ofText cs).skipBlanks.literal? "catch").bind fun c =>
    (optionally c.skipBlanks "(").skipBlanks.name?.bind fun name =>
      match caughtType? name.2 with
      | some type => some (name.1, some type)
      | none => if endsCatch name.2.rest then some (name.1, none) else none

/-! ### Imports, enumeration values, return types -/

/-- `import path { ... }`: the path and what stands between the braces. -/
def import? (cs : List Char) : Option (Span × Span) :=
  let isPath (c : Char) : Bool := isWord c || c == '.' || c == '/'
  ((Cursor.ofText cs).skipBlanks.word? "import").bind fun c =>
    (c.run? isPath isPath).bind fun path =>
      (path.2.skipBlanks.literal? "\x7b").bind fun c' =>
        let inner := c'.skipWhile (· != '}')
        if inner.atEnd then none else some (path.1, ⟨c'.pos, inner.pos⟩)

/-- A parenthesised part that reaches to the end, but for a final comma. -/
def isArgumentTail (cs : List Char) : Bool :=
  let text := stripEnd cs
  let text := if text.getLast? = some ',' then stripEnd text.dropLast else text
  text.head? = some '(' && text.getLast? = some ')'

/-- An upper-case name alone on its line, with optional arguments and a final comma. -/
def enumValue? (cs : List Char) : Option Span :=
  let isUpper (c : Char) : Bool := c.isUpper || c.isDigit || c == '_'
  ((Cursor.ofText cs).skipBlanks.run? Char.isUpper isUpper).bind fun name =>
    let tail := name.2.skipBlanks
    if isArgumentTail tail.rest || (optionally tail ",").skipBlanks.atEnd then some name.1 else none

/-- The return type in the text behind a parameter list. A type that ends with `end` belongs to a
function written on one line and is not kept. -/
def returnText? (cs : List Char) : Option String :=
  ((Cursor.ofText cs).skipBlanks.literal? "->").bind fun c =>
    let rest := stripStart c.rest
    let text := strip (rest.take (shortest endsWithColon rest))
    if text = [] ∨ text = "end".toList ∨ " end".toList.isSuffixOf text then none
    else some (String.ofList text)

/-! ### Class headers -/

/-- Type parameters in angle brackets at the start of a text, and the text behind them. -/
def typeParams (cs : List Char) : List String × List Char :=
  match cs with
  | '<' :: rest =>
    let inner := rest.takeWhile fun c => c != '<' && c != '>'
    match rest.drop inner.length with
    | '>' :: tail =>
      (((splitOnChar ',' inner).map strip).filter (· != []) |>.map String.ofList, tail)
    | _ => ([], cs)
  | _ => ([], cs)

/-- The parent class after a `<`. -/
def parent? (cs : List Char) : Option String :=
  ((Cursor.ofText cs).skipBlanks.literal? "<").bind fun c =>
    let c := c.skipBlanks
    c.name?.map fun r => String.ofList (c.rest.take (r.1.stop - r.1.start))

/-- What stands behind the word `implements` at the start of a text, up to a colon. -/
def implementsAt? (cs : List Char) : Option (List Char) :=
  ((Cursor.ofText cs).literal? "implements").bind fun c =>
    c.blanks?.bind fun c' =>
      let names := c'.rest.takeWhile (· != ':')
      if names != [] then some names else if c.pos + 1 < c'.pos then some [] else none

/-- The first list of implemented interfaces, where `afterWord` says that the text follows a word
character. -/
def implementsFrom (afterWord : Bool) : List Char → List Char
  | [] => []
  | c :: cs =>
    match if afterWord then none else implementsAt? (c :: cs) with
    | some names => names
    | none => implementsFrom (isWord c) cs

/-- The interfaces a class header names. -/
def implements (cs : List Char) : List String :=
  (((splitOnChar ',' (implementsFrom false cs)).map strip).filter (· != [])).map String.ofList

end Polyloft.Shape
