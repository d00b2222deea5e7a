import Polyloft.Document
import Polyloft.Scope.Frame

/-!
# Polyloft.Scope.Tree

The scope tree of a document, built in one pass over its lines. The builder keeps the blocks that
are open, innermost first, and gives every line the frame that holds it: a header line belongs to
the block around it, a line that closes a block to the block it closes, and a construct written on
one line to itself. A new frame is added to the children of the innermost open one.

Containment questions are answered by walking outwards from the frame of a line, so nested
functions, loops and classes are never confused. A parent is always created before its children,
and the walk relies on that order.
-/

namespace Polyloft

/-- The frames of a document, the frames directly inside each of them, and the frame of each line.
`stray` lists lines that close nothing, `unclosed` the blocks that are still open at the end. -/
structure ScopeTree where
  frames : Array Frame
  childIds : Array (List Nat)
  lineFrames : Array Nat
  stray : List Nat
  unclosed : List Nat
deriving Repr

/-! ### Building -/

/-- The state of the pass: frames so far, the frames directly inside each of them, open blocks
innermost first (the module left out), the frame of each line so far, and the lines that closed
nothing. -/
structure ScopeBuilder where
  frames : Array Frame
  childIds : Array (List Nat)
  pending : List Nat
  lineFrames : Array Nat
  stray : List Nat
deriving Repr

namespace ScopeBuilder

/-- The module frame of a document with `count` lines, and nothing open. -/
def init (count : Nat) : ScopeBuilder :=
  { frames := #[⟨0, .module, none, 0, some (count - 1), none, none, false⟩]
    childIds := #[[]]
    pending := []
    lineFrames := #[]
    stray := [] }

/-- The innermost open frame. -/
def top (b : ScopeBuilder) : Nat :=
  b.pending.headD 0

/-- The construct of the innermost open frame. -/
def topConstruct (b : ScopeBuilder) : Construct :=
  (b.frames[b.top]?.map Frame.construct).getD .module

/-- Records the last line of a frame. -/
def setStop (b : ScopeBuilder) (id line : Nat) : ScopeBuilder :=
  { b with frames := b.frames.modify id fun f => { f with stop := some line } }

/-- Closes the innermost open frame at a line. -/
def pop (b : ScopeBuilder) (line : Nat) : ScopeBuilder :=
  { b.setStop b.top line with pending := b.pending.tail }

/-- Gives the next line its frame. -/
def assign (b : ScopeBuilder) (id : Nat) : ScopeBuilder :=
  { b with lineFrames := b.lineFrames.push id }

/-- A new frame inside the innermost open one. -/
def newFrame (b : ScopeBuilder) (o : Opening) (line : Nat) (head : Option Nat) : Frame :=
  ⟨b.frames.size, o.construct, o.name, line, none, some b.top, head, false⟩

/-- The children of all frames once a new frame, which has none, is one of its parent's. -/
def addChild (childIds : Array (List Nat)) (f : Frame) : Array (List Nat) :=
  match f.parent with
  | none => childIds.push []
  | some p => (childIds.modify p (· ++ [f.id])).push []

/-- Opens a block. -/
def push (b : ScopeBuilder) (f : Frame) : ScopeBuilder :=
  { b with
    frames := b.frames.push f
    childIds := addChild b.childIds f
    pending := f.id :: b.pending }

/-- Adds a construct that is written on one line. -/
def addInline (b : ScopeBuilder) (f : Frame) : ScopeBuilder :=
  { b with
    frames := b.frames.push { f with inline := true, stop := some f.start }
    childIds := addChild b.childIds f }

/-- Closes the clauses at the head of the given open frames. -/
def popClauses (line : Nat) : List Nat → ScopeBuilder → ScopeBuilder
  | [], b => b
  | _ :: ids, b => if b.topConstruct.isClause then popClauses line ids (b.pop line) else b

/-- A line that closes a block: clauses close together with their switch. -/
def close (b : ScopeBuilder) (line : Nat) : ScopeBuilder :=
  let b := popClauses line b.pending b
  if b.pending.isEmpty then { b.assign 0 with stray := b.stray ++ [line] }
  else (b.pop line).assign b.top

/-- A line that starts a branch of the innermost chain. `closes` says that the line also carries
the chain's `end`. -/
def branch? (b : ScopeBuilder) (c : Construct) (line : Nat) (closes : Bool) :
    Option ScopeBuilder :=
  if !b.pending.isEmpty && c.continues b.topConstruct then
    let head := (b.frames[b.top]?.map Frame.chainHead).getD b.top
    let b := b.pop (line - 1)
    let f := b.newFrame ⟨c, none⟩ line (some head)
    if closes then some ((b.push f).close line) else some ((b.assign b.top).push f)
  else none

/-- Ends the clause before a line that starts another one. -/
def endClause (b : ScopeBuilder) (line : Nat) : ScopeBuilder :=
  if b.topConstruct.isClause then b.pop (line - 1) else b

/-- A line that starts a clause of the innermost switch. -/
def clause? (b : ScopeBuilder) (c : Construct) (line : Nat) : Option ScopeBuilder :=
  if b.topConstruct = .switchBody then
    some ((b.assign b.top).push (b.newFrame ⟨c, none⟩ line none))
  else none

/-- A line that neither closes nor continues a block: it may open one. -/
def ordinary (b : ScopeBuilder) (tokens : List Token) (line : Nat) : ScopeBuilder :=
  match opening? tokens with
  | none => b.assign b.top
  | some o =>
    let f := b.newFrame o line none
    if hasEnd tokens.tail then (b.addInline f).assign f.id else (b.assign b.top).push f

/-- A line with code that does not close a block by itself. -/
def statement (b : ScopeBuilder) (tokens : List Token) (line : Nat) : ScopeBuilder :=
  match tokens.dropWhile Token.isDeclarationPrefix with
  | [] => b.ordinary tokens line
  | first :: rest =>
    if first.kind = .keyword then
      match branchConstruct? first.text with
      | some c => (b.branch? c line (hasEnd rest)).getD (b.ordinary tokens line)
      | none =>
        match clauseConstruct? first.text with
        | some c =>
          let b := b.endClause line
          (b.clause? c line).getD (b.ordinary tokens line)
        | none => b.ordinary tokens line
    else b.ordinary tokens line

/-- One line. -/
def step (b : ScopeBuilder) (line : Line) : ScopeBuilder :=
  let tokens := line.codeTokens
  if tokens.isEmpty then b.assign b.top
  else if isTerminator tokens then b.close line.index
  else b.statement tokens line.index

/-- The chain heads of blocks that are still open, outermost first and each once; the frames'
last lines are set to the last line of the document. -/
def finishFrames (last : Nat) : List Nat → Array Frame × List Nat → Array Frame × List Nat
  | [], acc => acc
  | id :: ids, (frames, unclosed) =>
    match frames[id]? with
    | none => finishFrames last ids (frames, unclosed)
    | some f =>
      if f.isImplicit then finishFrames last ids (frames, unclosed)
      else
        let stopAt (g : Frame) : Frame := { g with stop := some last }
        let frames := (frames.modify id stopAt).modify f.chainHead stopAt
        let unclosed :=
          if unclosed.contains f.chainHead then unclosed else unclosed ++ [f.chainHead]
        finishFrames last ids (frames, unclosed)

/-- The tree, once all lines are read. -/
def finish (b : ScopeBuilder) (last : Nat) : ScopeTree :=
  let (frames, unclosed) := finishFrames last b.pending.reverse (b.frames, [])
  { frames, childIds := b.childIds, lineFrames := b.lineFrames, stray := b.stray, unclosed }

end ScopeBuilder

/-- The scope tree of a document. -/
def ScopeTree.build (doc : Document) : ScopeTree :=
  (doc.lines.foldl ScopeBuilder.step (ScopeBuilder.init doc.size)).finish (doc.size - 1)

/-! ### Queries -/

namespace ScopeTree

/-- The frame with a given number. -/
def frame? (tree : ScopeTree) (id : Nat) : Option Frame :=
  tree.frames[id]?

/-- The innermost frame that holds a line. -/
def frameAt? (tree : ScopeTree) (line : Int) : Option Frame :=
  if line < 0 then none else (tree.lineFrames[line.toNat]?).bind tree.frame?

/-- The frame whose header stands on a line; branches and clauses have no header of their own. -/
def openedAt? (tree : ScopeTree) (line : Int) : Option Frame :=
  tree.frames.find? fun f =>
    (f.start : Int) == line && f.parent.isSome && f.head.isNone && !f.isImplicit

/-- The frames directly inside a frame, in order. -/
def children (tree : ScopeTree) (id : Nat) : List Frame :=
  ((tree.childIds[id]?).getD []).filterMap tree.frame?

/-- The frame with a given number, then the frames around it from the inside out. -/
def ancestors (tree : ScopeTree) (id : Nat) : List Frame :=
  match tree.frames[id]? with
  | none => []
  | some f =>
    match f.parent with
    | none => [f]
    | some p => if p < id then f :: ancestors tree p else [f]
termination_by id

/-- The frames that hold a line, innermost first. -/
def around (tree : ScopeTree) (line : Int) : List Frame :=
  match tree.frameAt? line with
  | none => []
  | some f => tree.ancestors f.id

/-- The innermost function that holds a line. -/
def functionAt? (tree : ScopeTree) (line : Int) : Option Frame :=
  (tree.around line).find? fun f => f.kind == .function

/-- The innermost class-like or interface body that holds a line. -/
def classAt? (tree : ScopeTree) (line : Int) : Option Frame :=
  (tree.around line).find? fun f => f.kind == .classLike || f.kind == .interface

/-- Walking outwards, is a loop met before a function, class-like, interface or the module? -/
def meetsLoop : List Frame → Bool
  | [] => false
  | f :: fs =>
    match f.kind with
    | .loop => true
    | .conditional => meetsLoop fs
    | _ => false

/-- A method of a class-like: a function directly in its body, where a constructor must bear the
name of the class. -/
def isMethod (tree : ScopeTree) (f : Frame) : Bool :=
  f.kind == .function &&
    match f.parent.bind tree.frame? with
    | none => false
    | some owner =>
      owner.kind == .classLike && (f.construct != .constructor || f.name == owner.name)

/-- Is a line inside a construct of the given kind? A loop counts only within the same function;
a class-like only through one of its methods. -/
def contains (tree : ScopeTree) (line : Int) : BlockKind → Bool
  | .loop => meetsLoop (tree.around line)
  | .classLike => (tree.around line).any tree.isMethod
  | kind => (tree.around line).any fun f => f.kind == kind

end ScopeTree

end Polyloft
