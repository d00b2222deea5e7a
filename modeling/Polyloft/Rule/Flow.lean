import Polyloft.Rule
import Polyloft.Token.Brackets

/-!
# Polyloft.Rule.Flow

Rules about where statements stand: words that need a class, a function or a loop around them,
statements that are never reached, and indentation.
-/

namespace Polyloft.Rule

/-! ### Words that need a construct around them -/

/-- The first of the given words on a line, unless the line is inside a construct of a kind that
allows it. -/
def misplacedIn (a : Analysis) (words : List String) (kind : BlockKind) (line : Line) :
    Option Token :=
  (line.codeTokens.find? (·.isKeywordIn words)).filter fun _ => !a.tree.contains line.index kind

/-- `this` outside of methods. -/
def thisOutsideClass : Rule :=
  .ofFindings "this-outside-class" "PF-E006" .error
    "``this`` is only legal inside a method of a class, enum or record." fun a =>
      (a.document.lines.filterMap (misplacedIn a ["this"] .classLike)).map fun t =>
        ⟨t.range, "\"this\" can only be used inside class, enum, or record methods"⟩

/-- `return` outside of functions. -/
def returnOutsideFunction : Rule :=
  .ofFindings "return-outside-function" "PF-E007" .error "``return`` needs an enclosing function."
    fun a => (a.document.lines.filterMap (misplacedIn a ["return"] .function)).map fun t =>
      ⟨t.range, "\"return\" statement outside of function"⟩

/-- `break` and `continue` outside of loops. -/
def breakOutsideLoop : Rule :=
  .ofFindings "break-outside-loop" "PF-E008" .error
    "``break`` and ``continue`` need an enclosing loop in the same function." fun a =>
      (a.document.lines.filterMap (misplacedIn a ["break", "continue"] .loop)).map fun t =>
        ⟨t.range, "'" ++ t.text ++ "' statement can only be used inside loops"⟩

/-! ### Reachability -/

/-- Words after which the rest of a block is not reached. -/
def jumpWords : List String := ["return", "break", "continue", "throw"]

/-- Words that end the statements of a block. -/
def blockEndWords : List String :=
  ["end", "elif", "else", "catch", "finally", "case", "default"]

/-- The word that leaves the block, if the line is a complete jump. -/
def jump? (tokens : List Token) : Option String :=
  match tokens with
  | [] => none
  | first :: rest =>
    if first.isKeywordIn jumpWords && bracketBalance tokens ≤ 0 &&
        !rest.any (·.isKeyword "end") then
      some first.text
    else none

/-- The next line with code, if it is a statement of the same frame. -/
def followingIn (a : Analysis) (frame : Option Frame) (later : List Line) : Option Line :=
  (later.find? fun l => !l.codeTokens.isEmpty).filter fun l =>
    !l.codeTokens.head?.any (·.isKeywordIn blockEndWords) &&
      (a.tree.frameAt? l.index).map Frame.id == frame.map Frame.id

/-- The statements that stand after a jump. -/
def unreachableIn (a : Analysis) : List Line → List Finding
  | [] => []
  | line :: later =>
    let found := (jump? line.codeTokens).bind fun word =>
      (followingIn a (a.tree.frameAt? line.index) later).map fun next =>
        Finding.mk next.codeRange ("Unreachable code after " ++ word ++ " statement")
    found.toList ++ unreachableIn a later

/-- Statements that are never reached. -/
def unreachableCode : Rule :=
  .ofFindings "unreachable-code" "PF-W107" .warning
    "First statement after an unconditional jump in the same block." fun a =>
      unreachableIn a a.document.lines

/-! ### Indentation -/

/-- Is the indentation of a line judged? Only spaces at the start of a statement are. -/
def judgesIndent (depth : Int) (line : Line) : Bool :=
  !line.codeTokens.isEmpty && depth ≤ 0 && !(line.text.take line.indent).contains '\t'

/-- The lines whose indentation is not a multiple of `width`, when `depth` more brackets are open
than closed before them. -/
def misindented (width : Int) (depth : Int) : List Line → Except Fault (List Finding)
  | [] => .ok []
  | line :: later => do
    let depth' := depth + bracketBalance line.codeTokens
    if judgesIndent depth line then
      if width = 0 then .error .zeroWidth
      else if (line.indent : Int) % width ≠ 0 then
        return ⟨⟨line.index, 0, line.indent⟩, "Inconsistent indentation (should be multiples of " ++
          toString width ++ " spaces)"⟩ :: (← misindented width depth' later)
      else misindented width depth' later
    else misindented width depth' later

/-- Indentation by other than a multiple of the configured width. -/
def indentation : Rule :=
  .ofChecks "indentation" "PF-H203" .hint
    "Space indentation should be a multiple of the configured width." fun ctx =>
      misindented ctx.settings.indentWidth 0 ctx.analysis.document.lines

end Polyloft.Rule
