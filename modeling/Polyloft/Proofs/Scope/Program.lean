import Polyloft.Proofs.Scope.Children

/-!
# Polyloft.Proofs.Scope.Program

Well-nested programs. A program is a list of items, and an item may hold further lists of items:

```text
items    ::= item*
item     ::= line without code
           | plain line
           | construct written on one line
           | header items terminator
           | if or try header, items, branches
           | switch header, items, clauses
branches ::= terminator | branch line with `end` | branch line, items, branches
clauses  ::= terminator | clause line, items, clauses
```

A line is a list of code tokens, and which lines may stand where is said with `opening?`,
`isTerminator` and `hasEnd` only; each class of lines is a structure that carries the proof.

What the scope tree of a program is, is said by recursion on the grammar: `Items.frames` lists the
frames in the order of their first lines, and `Items.owners` the frame that holds each line. Both
take the number that the next frame gets, so there is no stack here; that the builder with its
stack of open blocks arrives at the same tree is `Polyloft.Proofs.Scope.Nesting`. The children of
a frame are those whose parent it is.
-/

namespace Polyloft

/-! ### Lines -/

/-- The words that make a line continue a chain or start a clause when they come first. -/
def continuationWords : List String :=
  ["elif", "else", "catch", "finally", "case", "default"]

/-- A line with code that does not close a block by itself, and whose first token behind
annotations and modifiers does not continue a chain or start a clause. -/
structure IsOrdinary (ts : List Token) : Prop where
  ne_nil : ts ≠ []
  not_terminator : isTerminator ts = false
  not_continuation : ∀ first rest, ts.dropWhile Token.isDeclarationPrefix = first :: rest →
    first.isKeywordIn continuationWords = false

/-- A line that opens nothing. -/
structure PlainLine where
  tokens : List Token
  ordinary : IsOrdinary tokens
  opens : opening? tokens = none

/-- A line that opens a block; `oneLine` says that the line also ends it. -/
structure OpeningLine (oneLine : Bool) where
  tokens : List Token
  opening : Opening
  ordinary : IsOrdinary tokens
  opens : opening? tokens = some opening
  ends : hasEnd tokens.tail = oneLine

/-- A line that closes a block. -/
structure TerminatorLine where
  tokens : List Token
  closes : isTerminator tokens = true

/-- The two kinds of chains. -/
inductive ChainFamily where
  | ifChain
  | tryChain
deriving DecidableEq, Repr

/-- The construct that starts a chain. -/
def ChainFamily.head : ChainFamily → Construct
  | .ifChain => .ifBranch
  | .tryChain => .tryBranch

/-- Does a construct belong to a chain of the family? -/
def ChainFamily.has : ChainFamily → Construct → Bool
  | .ifChain => Construct.isIfBranch
  | .tryChain => Construct.isTryBranch

/-- The header of a chain. -/
structure ChainHeader (family : ChainFamily) extends OpeningLine false where
  starts : opening.construct = family.head

/-- The header of a switch. -/
structure SwitchHeader extends OpeningLine false where
  starts : opening.construct = .switchBody

/-- A line that continues a chain of the family; `last` says that it also ends the chain. -/
structure BranchLine (family : ChainFamily) (last : Bool) where
  tokens : List Token
  construct : Construct
  word : Token
  after : List Token
  leads : tokens.dropWhile Token.isDeclarationPrefix = word :: after
  isKeyword : word.kind = .keyword
  branches : branchConstruct? word.text = some construct
  belongs : family.has construct = true
  ends : hasEnd after = last

/-- A line that starts a clause of a switch. -/
structure ClauseLine where
  tokens : List Token
  construct : Construct
  word : Token
  after : List Token
  leads : tokens.dropWhile Token.isDeclarationPrefix = word :: after
  isKeyword : word.kind = .keyword
  starts : clauseConstruct? word.text = some construct

/-! ### Programs -/

mutual

/-- A list of items. -/
inductive Items where
  | nil
  /-- A line without code. -/
  | blank (rest : Items)
  | plain (line : PlainLine) (rest : Items)
  /-- A construct that is written on one line. -/
  | inline (line : OpeningLine true) (rest : Items)
  | block (header : OpeningLine false) (body : Items) (close : TerminatorLine) (rest : Items)
  | chain (family : ChainFamily) (header : ChainHeader family) (body : Items)
      (branches : Branches family) (rest : Items)
  | switch (header : SwitchHeader) (body : Items) (clauses : Clauses) (rest : Items)

/-- What follows the first part of a chain. -/
inductive Branches : ChainFamily → Type where
  | close {family : ChainFamily} (line : TerminatorLine) : Branches family
  /-- A last branch that is written on one line with the `end` of the chain. -/
  | last {family : ChainFamily} (line : BranchLine family true) : Branches family
  | branch {family : ChainFamily} (line : BranchLine family false) (body : Items)
      (rest : Branches family) : Branches family

/-- What follows the first part of a switch. -/
inductive Clauses where
  | close (line : TerminatorLine)
  | clause (line : ClauseLine) (body : Items) (rest : Clauses)

end

mutual

/-- The lines of a program. -/
def Items.lines : Items → List (List Token)
  | .nil => []
  | .blank rest => [] :: rest.lines
  | .plain line rest => line.tokens :: rest.lines
  | .inline line rest => line.tokens :: rest.lines
  | .block header body close rest =>
      header.tokens :: (body.lines ++ close.tokens :: rest.lines)
  | .chain _ header body branches rest =>
      header.tokens :: (body.lines ++ (branches.lines ++ rest.lines))
  | .switch header body clauses rest =>
      header.tokens :: (body.lines ++ (clauses.lines ++ rest.lines))

/-- The lines of the rest of a chain. -/
def Branches.lines {family : ChainFamily} : Branches family → List (List Token)
  | .close line => [line.tokens]
  | .last line => [line.tokens]
  | .branch line body rest => line.tokens :: (body.lines ++ rest.lines)

/-- The lines of the rest of a switch. -/
def Clauses.lines : Clauses → List (List Token)
  | .close line => [line.tokens]
  | .clause line body rest => line.tokens :: (body.lines ++ rest.lines)

end

/-- The number of lines of a program. -/
abbrev Items.height (p : Items) : Nat := p.lines.length

mutual

/-- The number of frames of a program. -/
def Items.count : Items → Nat
  | .nil => 0
  | .blank rest => rest.count
  | .plain _ rest => rest.count
  | .inline _ rest => 1 + rest.count
  | .block _ body _ rest => 1 + body.count + rest.count
  | .chain _ _ body branches rest => 1 + body.count + branches.count + rest.count
  | .switch _ body clauses rest => 1 + body.count + clauses.count + rest.count

/-- The number of frames of the rest of a chain. -/
def Branches.count {family : ChainFamily} : Branches family → Nat
  | .close _ => 0
  | .last _ => 1
  | .branch _ body rest => 1 + body.count + rest.count

/-- The number of frames of the rest of a switch. -/
def Clauses.count : Clauses → Nat
  | .close _ => 0
  | .clause _ body rest => 1 + body.count + rest.count

end

/-! ### Layout -/

/-- The last line of the part of a chain before the given rest, which starts on line `n`: a branch
line ends the part before it on the line above, a terminator belongs to the part it closes. -/
def Branches.stopBefore {family : ChainFamily} (n : Nat) : Branches family → Nat
  | .close _ => n
  | .last _ => n - 1
  | .branch _ _ _ => n - 1

/-- The last line of the clause before the given rest of a switch. -/
def Clauses.stopBefore (n : Nat) : Clauses → Nat
  | .close _ => n
  | .clause _ _ _ => n - 1

mutual

/-- The frames of a program whose first line has number `n`, inside the frame `parent`, the first
of them numbered `id`. -/
def Items.frames (n id parent : Nat) : Items → List Frame
  | .nil => []
  | .blank rest => rest.frames (n + 1) id parent
  | .plain _ rest => rest.frames (n + 1) id parent
  | .inline line rest =>
      ⟨id, line.opening.construct, line.opening.name, n, some n, some parent, none, true⟩ ::
        rest.frames (n + 1) (id + 1) parent
  | .block header body _ rest =>
      let stop := n + 1 + body.height
      ⟨id, header.opening.construct, header.opening.name, n, some stop, some parent, none,
          false⟩ ::
        (body.frames (n + 1) (id + 1) id ++
          rest.frames (stop + 1) (id + 1 + body.count) parent)
  | .chain _ header body branches rest =>
      let next := n + 1 + body.height
      ⟨id, header.opening.construct, header.opening.name, n, some (branches.stopBefore next),
          some parent, none, false⟩ ::
        (body.frames (n + 1) (id + 1) id ++
          (branches.frames next (id + 1 + body.count) parent id ++
            rest.frames (next + branches.lines.length) (id + 1 + body.count + branches.count)
              parent))
  | .switch header body clauses rest =>
      let next := n + 1 + body.height
      ⟨id, header.opening.construct, header.opening.name, n,
          some (next + clauses.lines.length - 1), some parent, none, false⟩ ::
        (body.frames (n + 1) (id + 1) id ++
          (clauses.frames next (id + 1 + body.count) id ++
            rest.frames (next + clauses.lines.length) (id + 1 + body.count + clauses.count)
              parent))

/-- The frames of the rest of a chain whose first frame is `head`. -/
def Branches.frames {family : ChainFamily} (n id parent head : Nat) : Branches family → List Frame
  | .close _ => []
  | .last line => [⟨id, line.construct, none, n, some n, some parent, some head, false⟩]
  | .branch line body rest =>
      let next := n + 1 + body.height
      ⟨id, line.construct, none, n, some (rest.stopBefore next), some parent, some head, false⟩ ::
        (body.frames (n + 1) (id + 1) id ++ rest.frames next (id + 1 + body.count) parent head)

/-- The frames of the rest of the switch with frame `parent`. -/
def Clauses.frames (n id parent : Nat) : Clauses → List Frame
  | .close _ => []
  | .clause line body rest =>
      let next := n + 1 + body.height
      ⟨id, line.construct, none, n, some (rest.stopBefore next), some parent, none, false⟩ ::
        (body.frames (n + 1) (id + 1) id ++ rest.frames next (id + 1 + body.count) parent)

end

mutual

/-- The frame of each line of a program: a header belongs to the frame around it, a terminator to
the frame it closes, and a construct on one line to itself. -/
def Items.owners (id parent : Nat) : Items → List Nat
  | .nil => []
  | .blank rest => parent :: rest.owners id parent
  | .plain _ rest => parent :: rest.owners id parent
  | .inline _ rest => id :: rest.owners (id + 1) parent
  | .block _ body _ rest =>
      parent :: (body.owners (id + 1) id ++ id :: rest.owners (id + 1 + body.count) parent)
  | .chain _ _ body branches rest =>
      parent :: (body.owners (id + 1) id ++ (branches.owners (id + 1 + body.count) parent id ++
        rest.owners (id + 1 + body.count + branches.count) parent))
  | .switch _ body clauses rest =>
      parent :: (body.owners (id + 1) id ++ (clauses.owners (id + 1 + body.count) id ++
        rest.owners (id + 1 + body.count + clauses.count) parent))

/-- The frame of each line of the rest of a chain, when its part before has frame `current`. -/
def Branches.owners {family : ChainFamily} (id parent current : Nat) : Branches family → List Nat
  | .close _ => [current]
  | .last _ => [id]
  | .branch _ body rest =>
      parent :: (body.owners (id + 1) id ++ rest.owners (id + 1 + body.count) parent id)

/-- The frame of each line of the rest of the switch with frame `parent`. -/
def Clauses.owners (id parent : Nat) : Clauses → List Nat
  | .close _ => [parent]
  | .clause _ body rest =>
      parent :: (body.owners (id + 1) id ++ rest.owners (id + 1 + body.count) parent)

end

/-- The scope tree of a program: nothing is left open and nothing closes too much. -/
def Items.tree (p : Items) : ScopeTree :=
  let frames := ⟨0, .module, none, 0, some (p.height - 1), none, none, false⟩ :: p.frames 0 1 0
  { frames := frames.toArray
    childIds := childLists frames
    lineFrames := (p.owners 1 0).toArray
    stray := []
    unclosed := [] }

end Polyloft
