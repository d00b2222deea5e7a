import Polyloft.Scope.Construct

/-!
# Polyloft.Scope.Frame

A frame is one block of a document: the construct that opened it, the lines it spans and the frame
around it. Frames are numbered in the order of their first lines; frame 0 is the module. The
branches of an if or try chain are frames of their own, which point to the first of them.
-/

namespace Polyloft

/-- One block. `stop` is absent while the block is open. -/
structure Frame where
  id : Nat
  construct : Construct
  name : Option String
  start : Nat
  stop : Option Nat
  parent : Option Nat
  head : Option Nat
  inline : Bool
deriving DecidableEq, Repr

namespace Frame

/-- The kind of block. -/
def kind (f : Frame) : BlockKind :=
  f.construct.kind

/-- A clause of a switch, which is closed together with it. -/
def isImplicit (f : Frame) : Bool :=
  f.construct.isClause

/-- The first frame of the chain the frame belongs to. -/
def chainHead (f : Frame) : Nat :=
  f.head.getD f.id

/-- Does the frame's line range hold the line? An open frame reaches without end. -/
def encloses (f : Frame) (line : Int) : Bool :=
  (f.start : Int) ≤ line &&
    match f.stop with
    | none => true
    | some stop => line ≤ (stop : Int)

end Frame

/-- The name of a kind of block as descriptions of frames show it. -/
def BlockKind.label : BlockKind → String
  | .module => "MODULE"
  | .function => "FUNCTION"
  | .loop => "LOOP"
  | .classLike => "CLASS_LIKE"
  | .interface => "INTERFACE"
  | .conditional => "CONDITIONAL"

/-- A one-line description such as `Frame#1(FUNCTION def f L0-2)`. -/
def Frame.describe (f : Frame) : String :=
  let name := match f.name with
    | none => ""
    | some n => if n = "" then "" else " " ++ n
  let stop := match f.stop with
    | none => "None"
    | some n => toString n
  s!"Frame#{f.id}({f.kind.label} {f.construct.keyword}{name} L{f.start}-{stop})"

end Polyloft
