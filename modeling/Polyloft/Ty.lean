/-!
# Polyloft.Ty

The types that inference computes: `Any`, a named type with ordered arguments, and a union of
named types. `Any` is the answer when nothing better is known; it is compatible with everything.

Unions list their members in the order in which they were found, but two unions are the same type
when they have the same members. That equality is `Ty.same`; it reaches into type arguments and is
what `unify` uses to leave out repetitions. A union is kept up to three members; beyond that
`unify` gives up and answers `Any`.
-/

namespace Polyloft

/-- A type of the language as inference sees it. -/
inductive Ty where
  | any
  | named (name : String) (args : List Ty)
  | union (members : List Ty)
deriving Repr, Inhabited

namespace Ty

/-! ### Equality of types -/

mutual

/-- The same type; members of a union may come in any order and any number of times. -/
def same : Ty → Ty → Bool
  | .any, .any => true
  | .named n as, .named m bs => n == m && sameAll as bs
  | .union as, .union bs => subsumes bs as && bs.all (sameAny as)
  | _, _ => false

/-- Same length, and the same types one by one. -/
def sameAll : List Ty → List Ty → Bool
  | [], [] => true
  | a :: as, b :: bs => same a b && sameAll as bs
  | _, _ => false

/-- Is `b` the same as one of the types `as`? -/
def sameAny : List Ty → Ty → Bool
  | [], _ => false
  | a :: as, b => same a b || sameAny as b

/-- Is each of the types `as` the same as one of the types `bs`? -/
def subsumes (bs : List Ty) : List Ty → Bool
  | [] => true
  | a :: as => bs.any (same a) && subsumes bs as

end

/-! ### Common types -/

/-- A type without arguments. -/
abbrev simple (name : String) : Ty := .named name []

/-- The type of a function that returns nothing. -/
abbrev void : Ty := simple "Void"
/-- Whole numbers. -/
abbrev int : Ty := simple "Int"
/-- Numbers with a fraction. -/
abbrev float : Ty := simple "Float"
/-- Text. -/
abbrev string : Ty := simple "String"
/-- Truth values. -/
abbrev bool : Ty := simple "Bool"
/-- Ranges of integers. -/
abbrev range : Ty := simple "Range"
/-- Maps whose keys and values are not known. -/
abbrev map : Ty := simple "Map"
/-- Arrays of `element`. -/
abbrev array (element : Ty) : Ty := .named "Array" [element]

/-- Is this `Any`? -/
def isAny : Ty → Bool
  | .any => true
  | _ => false

/-- A named type with arguments. -/
def isGeneric : Ty → Bool
  | .named _ args => !args.isEmpty
  | _ => false

/-- `Int`, `Float` or `Double`. -/
def isNumeric : Ty → Bool
  | .named n _ => n == "Int" || n == "Float" || n == "Double"
  | _ => false

/-- `Float` or `Double`. -/
def isFloating : Ty → Bool
  | .named n _ => n == "Float" || n == "Double"
  | _ => false

/-- The named types a type stands for: itself, or the members of a union. -/
def alternatives : Ty → List Ty
  | .any => []
  | .named n args => [.named n args]
  | .union members => members

/-! ### Rendering -/

mutual

/-- The written form of a type. -/
def render : Ty → String
  | .any => "Any"
  | .named n [] => n
  | .named n (a :: as) => n ++ "<" ++ renderSep ", " (a :: as) ++ ">"
  | .union members => renderSep " | " members

/-- The written forms of types with `sep` between each two. -/
def renderSep (sep : String) : List Ty → String
  | [] => ""
  | [t] => render t
  | t :: ts => render t ++ sep ++ renderSep sep ts

end

/-! ### Joining -/

/-- The largest number of members a union may have. -/
def maxMembers : Nat := 3

/-- The types that a type adds to a union. -/
def flatten : Ty → List Ty
  | .union members => members
  | t => [t]

/-- Adds a type to the members found so far unless one of them is the same. -/
def addMember (found : List Ty) (t : Ty) : List Ty :=
  if sameAny found t then found else found ++ [t]

/-- The distinct types among `ts`, unions taken apart, in the order in which they first occur. -/
def distinct (ts : List Ty) : List Ty :=
  (ts.flatMap flatten).foldl addMember []

/-- The type of the members found: none is `Void`, one is itself, more than `maxMembers` is
`Any`. -/
def ofMembers : List Ty → Ty
  | [] => void
  | [t] => t
  | ts => if ts.length ≤ maxMembers then .union ts else .any

/-- The join of some types. `Any` absorbs the others. -/
def unify (ts : List Ty) : Ty :=
  if ts.any isAny then .any else ofMembers (distinct ts)

/-! ### Compatibility -/

/-- Named types whose values are accepted where another is expected. -/
def widens (source target : String) : Bool :=
  source == "Int" && (target == "Float" || target == "Double")

mutual

/-- Can a value of the first type be stored where the second is expected? Arguments are compared
one by one as far as both types have them. -/
def assignable (source target : Ty) : Bool :=
  match source, target with
  | .any, _ => true
  | _, .any => true
  | .union sources, target => assignableAll sources target
  | .named n args, .union targets => assignableAny (.named n args) targets
  | .named n args, .named m args' => if n = m then assignableArgs args args' else widens n m
termination_by sizeOf source + sizeOf target

/-- Is each of the sources assignable to the target? -/
def assignableAll (sources : List Ty) (target : Ty) : Bool :=
  match sources with
  | [] => true
  | s :: ss => assignable s target && assignableAll ss target
termination_by sizeOf sources + sizeOf target

/-- Is the source assignable to one of the targets? -/
def assignableAny (source : Ty) (targets : List Ty) : Bool :=
  match targets with
  | [] => false
  | t :: ts => assignable source t || assignableAny source ts
termination_by sizeOf source + sizeOf targets

/-- Is each source argument assignable to the target argument at its place? -/
def assignableArgs (sources targets : List Ty) : Bool :=
  match sources, targets with
  | s :: ss, t :: ts => assignable s t && assignableArgs ss ts
  | _, _ => true
termination_by sizeOf sources + sizeOf targets

end

/-- May two operands be compared: both numeric, or one assignable to the other? -/
def comparable (left right : Ty) : Bool :=
  (left.isNumeric && right.isNumeric) || assignable left right || assignable right left

/-! ### Elements and substitution -/

/-- The argument at `index`; a missing one reads as `Any`. -/
def arg (args : List Ty) (index : Nat) : Ty :=
  args.getD index .any

/-- What indexing a value of the type yields. -/
def element : Ty → Ty
  | .named n args =>
    if n == "Array" || n == "List" || n == "Set" || n == "Deque" then arg args 0
    else if n == "Map" then arg args 1
    else if n == "String" then string
    else if n == "Range" then int
    else .any
  | _ => .any

/-- What a loop over a value of the type yields; a map yields its keys. -/
def iteration : Ty → Ty
  | .named "Map" args => arg args 0
  | t => element t

mutual

/-- Replaces names without arguments by the types bound to them. -/
def substitute (bindings : List (String × Ty)) : Ty → Ty
  | .any => .any
  | .named n [] => (bindings.lookup n).getD (.named n [])
  | .named n (a :: as) => .named n (substituteAll bindings (a :: as))
  | .union members => unify (substituteAll bindings members)

/-- Substitutes in each type of a list. -/
def substituteAll (bindings : List (String × Ty)) : List Ty → List Ty
  | [] => []
  | t :: ts => substitute bindings t :: substituteAll bindings ts

end

end Ty

end Polyloft
