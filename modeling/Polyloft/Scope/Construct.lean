import Polyloft.Token

/-!
# Polyloft.Scope.Construct

The constructs that make a block, and how a line is recognised as opening or closing one. A line
is classified by its code tokens alone:

```text
def name(params) -> T:     function (only with a final colon)
Name(params):              constructor
... do                     body of a lambda or a spawned thread
for x in xs:   loop:       loop
class / enum / record      class-like body
interface                  interface body
if / try / switch          conditional
elif / else                branch that continues an if chain
catch / finally            branch that continues a try chain
case / default             clause of a switch, closed together with it
end                        closes the innermost block
```
-/

namespace Polyloft

/-- What containment questions are asked about. -/
inductive BlockKind where
  | module
  | function
  | loop
  | classLike
  | interface
  | conditional
deriving DecidableEq, Repr

/-- The construct that opened a block. -/
inductive Construct where
  | module
  | function
  | constructor
  | doBlock
  | classBody
  | enumBody
  | recordBody
  | interfaceBody
  | forLoop
  | plainLoop
  | ifBranch
  | elifBranch
  | elseBranch
  | tryBranch
  | catchBranch
  | finallyBranch
  | switchBody
  | caseClause
  | defaultClause
deriving DecidableEq, Repr

namespace Construct

/-- The kind of block the construct makes. -/
def kind : Construct → BlockKind
  | .module => .module
  | .function | .constructor | .doBlock => .function
  | .classBody | .enumBody | .recordBody => .classLike
  | .interfaceBody => .interface
  | .forLoop | .plainLoop => .loop
  | _ => .conditional

/-- The word the construct is named by. -/
def keyword : Construct → String
  | .module => "module"
  | .function => "def"
  | .constructor => "constructor"
  | .doBlock => "do"
  | .classBody => "class"
  | .enumBody => "enum"
  | .recordBody => "record"
  | .interfaceBody => "interface"
  | .forLoop => "for"
  | .plainLoop => "loop"
  | .ifBranch => "if"
  | .elifBranch => "elif"
  | .elseBranch => "else"
  | .tryBranch => "try"
  | .catchBranch => "catch"
  | .finallyBranch => "finally"
  | .switchBody => "switch"
  | .caseClause => "case"
  | .defaultClause => "default"

/-- A branch of an if chain. -/
def isIfBranch : Construct → Bool
  | .ifBranch | .elifBranch | .elseBranch => true
  | _ => false

/-- A branch of a try chain. -/
def isTryBranch : Construct → Bool
  | .tryBranch | .catchBranch | .finallyBranch => true
  | _ => false

/-- A clause of a switch; it has no `end` of its own. -/
def isClause : Construct → Bool
  | .caseClause | .defaultClause => true
  | _ => false

/-- May a line that starts with `branch` continue a chain whose last branch is `c`? -/
def continues (branch c : Construct) : Bool :=
  if branch.isIfBranch then c.isIfBranch else c.isTryBranch

end Construct

/-- A block that a line opens, with the name it declares. -/
structure Opening where
  construct : Construct
  name : Option String := none
deriving DecidableEq, Repr

/-- The construct that a keyword other than `def` opens when it stands first. -/
def leadingConstruct? : String → Option Construct
  | "class" => some .classBody
  | "enum" => some .enumBody
  | "record" => some .recordBody
  | "interface" => some .interfaceBody
  | "for" => some .forLoop
  | "loop" => some .plainLoop
  | "if" => some .ifBranch
  | "try" => some .tryBranch
  | "switch" => some .switchBody
  | _ => none

/-- The branch that a keyword starts when it continues a chain. -/
def branchConstruct? : String → Option Construct
  | "elif" => some .elifBranch
  | "else" => some .elseBranch
  | "catch" => some .catchBranch
  | "finally" => some .finallyBranch
  | _ => none

/-- The clause that a keyword starts inside a switch. -/
def clauseConstruct? : String → Option Construct
  | "case" => some .caseClause
  | "default" => some .defaultClause
  | _ => none

/-- Does a block of this construct carry a name? -/
def Construct.isNamed : Construct → Bool
  | .classBody | .enumBody | .recordBody | .interfaceBody => true
  | _ => false

/-- The text of a token if it is an identifier. -/
def identifierText? (t : Token) : Option String :=
  if t.kind = .identifier then some t.text else none

/-- A constructor header `Name(...):` or a final `do`, for a line whose first token after the
prefix is `first` and is followed by `rest`. -/
def trailingOpening? (first : Token) (rest : List Token) : Option Opening :=
  let last := rest.getLastD first
  if first.kind == .identifier && first.startsUpper && rest.head?.any (·.isSymbol "(") &&
      last.isSymbol ":" then
    some ⟨.constructor, some first.text⟩
  else if last.isKeyword "do" then some ⟨.doBlock, none⟩
  else none

/-- The block that a line opens, judged by its code tokens. -/
def opening? (tokens : List Token) : Option Opening :=
  match tokens.dropWhile Token.isDeclarationPrefix with
  | [] => none
  | first :: rest =>
    let name := rest.head?.bind identifierText?
    if first.isKeyword "def" then
      if (rest.getLastD first).isSymbol ":" then some ⟨.function, name⟩ else none
    else if first.kind = .keyword then
      match leadingConstruct? first.text with
      | some c => some ⟨c, if c.isNamed then name else none⟩
      | none => trailingOpening? first rest
    else trailingOpening? first rest

/-- A line that closes a block: `end`, alone or followed by closing punctuation. -/
def isTerminator : List Token → Bool
  | [] => false
  | t :: ts =>
    t.isKeyword "end" &&
      match ts with
      | [] => true
      | u :: _ => [")", "]", "\x7d", ",", ";"].contains u.text

/-- Is the keyword `end` among the tokens? -/
def hasEnd (tokens : List Token) : Bool :=
  tokens.any (·.isKeyword "end")

end Polyloft
