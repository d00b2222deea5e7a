import Polyloft.FileTree
import Polyloft.Module
import Polyloft.Text.Split

/-!
# Polyloft.Module.Directory

Modules in the files of a project. For the path `a.b.c` these files are tried in order:

```text
libs/a/b/c/index.pf   libs/a/b/c.pf
src/a.b.c.pf          src/a/b/c/index.pf
a.b.c.pf              a/b/c/index.pf    a/b/c.pf
```

The first that is there is the module; if it cannot be read as text, looking for the module fails.
-/

namespace Polyloft

open Polyloft.Text

/-- The parts of a module path, which dots or slashes separate. -/
def modulePathParts (module : String) : List String :=
  (splitOnChar '.' (module.toList.map fun c => if c = '/' then '.' else c)).map String.ofList

/-- The files that a module may be in, in the order in which they are tried. -/
def moduleCandidates (root : Path) (module : String) : List Path :=
  let parts := modulePathParts module
  let file := parts.dropLast ++ [parts.getLastD "" ++ ".pf"]
  let index := parts ++ ["index.pf"]
  let plain := module ++ ".pf"
  [root.joinAll ("libs" :: index), root.joinAll ("libs" :: file), root.joinAll ["src", plain],
    root.joinAll ("src" :: index), root.joinAll [plain], root.joinAll index, root.joinAll file]

/-- Access to files, in some monad. -/
structure FileAccess (m : Type → Type) where
  read : Path → m (Except FileError (List UInt8))
  isFile : Path → m Bool

/-- The first of some paths that is a file. -/
def firstFile {m : Type → Type} [Monad m] (files : FileAccess m) : List Path → m (Option Path)
  | [] => pure none
  | path :: paths => do
    if ← files.isFile path then pure (some path) else firstFile files paths

/-- The source of the module at a path. -/
def readModule {m : Type → Type} [Monad m] (files : FileAccess m) (path : Path) :
    m (Except ResolverFault (Option ModuleSource)) := do
  match ← files.read path with
  | .error _ => pure (.error .unreadable)
  | .ok bytes =>
    match fileText bytes with
    | .error _ => pure (.error .unreadable)
    | .ok text => pure (.ok (some ⟨path.render, text⟩))

/-- Looks for a module below a directory. -/
def fetchModule {m : Type → Type} [Monad m] (files : FileAccess m) (root : Path)
    (module : String) : m (Except ResolverFault (Option ModuleSource)) := do
  match ← firstFile files (moduleCandidates root module) with
  | none => pure (.ok none)
  | some path => readModule files path

/-- Looks for some modules below a directory, once, and remembers what was found. -/
def Resolver.ofDirectory {m : Type → Type} [Monad m] (files : FileAccess m) (root : Path)
    (modules : List String) : m Resolver := do
  let found ← modules.mapM fun module => do return (module, ← fetchModule files root module)
  pure fun module => (found.lookup module).getD (.ok Option.none)

/-- Access to the files of a tree in memory. -/
def FileTree.access {m : Type → Type} [Monad m] (tree : FileTree) : FileAccess m where
  read path := pure (tree.read path)
  isFile path := pure (tree.isFile path)

end Polyloft
