/-!
# Polyloft.Module

Other modules. A resolver turns the dotted path of an import into the text of a module; it may find
nothing, and it may fail. Queries treat both the same way: the module is unknown.
-/

namespace Polyloft

/-- The text of a module and the name it is known by. -/
structure ModuleSource where
  uri : String
  text : List Char
deriving DecidableEq, Repr

/-- A module could not be read. -/
inductive ResolverFault where
  | unreadable
deriving DecidableEq, Repr

/-- Finds modules by path. -/
abbrev Resolver := String → Except ResolverFault (Option ModuleSource)

namespace Resolver

/-- Finds nothing. -/
def none : Resolver := fun _ => .ok Option.none

/-- Fails for every module. -/
def failing : Resolver := fun _ => .error .unreadable

/-- Finds the modules of a list, each known by its path. -/
def ofList (modules : List (String × List Char)) : Resolver := fun path =>
  .ok ((modules.lookup path).map fun text => ⟨path, text⟩)

/-- The module at a path; a failure counts as not found. -/
def find? (r : Resolver) (path : String) : Option ModuleSource :=
  match r path with
  | .ok found => found
  | .error _ => Option.none

end Resolver

end Polyloft
