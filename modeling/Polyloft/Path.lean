import Polyloft.Text.Split

/-!
# Polyloft.Path

Paths of files: a root and the names below it. Empty names and single dots vanish when a path is
read, double dots stay. Joining an absolute path drops everything before it.
-/

namespace Polyloft

open Polyloft.Text

/-- What a path starts from. Exactly two slashes at the start are a root of their own. -/
inductive PathRoot where
  | relative
  | absolute
  | doubleSlash
deriving DecidableEq, Repr

/-- A path. -/
structure Path where
  root : PathRoot
  names : List (List Char)
deriving DecidableEq, Repr

namespace Path

/-- The names in a text. -/
def namesOf (cs : List Char) : List (List Char) :=
  (splitOnChar '/' cs).filter fun name => name ≠ [] && name ≠ ['.']

/-- The root a text starts from. -/
def rootOf : List Char → PathRoot
  | '/' :: '/' :: '/' :: _ => .absolute
  | '/' :: '/' :: _ => .doubleSlash
  | '/' :: _ => .absolute
  | _ => .relative

/-- The path a text denotes. -/
def ofText (cs : List Char) : Path :=
  ⟨rootOf cs, namesOf cs⟩

/-- The path a text denotes. -/
def ofString (s : String) : Path :=
  ofText s.toList

/-- The path `q` as seen from `p`. -/
def join (p q : Path) : Path :=
  match q.root with
  | .relative => ⟨p.root, p.names ++ q.names⟩
  | _ => q

/-- The paths joined one after the other. -/
def joinAll (p : Path) (qs : List String) : Path :=
  qs.foldl (fun p q => p.join (ofString q)) p

/-- The path without its last name. -/
def parent (p : Path) : Path :=
  { p with names := p.names.dropLast }

/-- The text of a path; an empty relative path is a single dot. -/
def render (p : Path) : String :=
  let names := String.ofList (joinWith '/' p.names)
  match p.root with
  | .relative => if names = "" then "." else names
  | .absolute => "/" ++ names
  | .doubleSlash => "//" ++ names

/-- The names with each double dot taken together with the name before it. -/
def collapse (names : List (List Char)) : List (List Char) :=
  names.foldl (fun kept name => if name = ['.', '.'] then kept.dropLast else kept ++ [name]) []

/-- The path as an absolute one, seen from the directory `cwd`. -/
def resolve (p cwd : Path) : Path :=
  let full := cwd.join p
  { full with names := collapse full.names }

end Path

end Polyloft
