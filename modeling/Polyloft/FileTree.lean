import Polyloft.Path
import Polyloft.Text.Newline
import Polyloft.Text.Quoted
import Polyloft.Text.Utf8

/-!
# Polyloft.FileTree

Reading files: what can go wrong, text from bytes, and a directory tree held in memory. In the tree
a directory is there because a file below it is.
-/

namespace Polyloft

open Polyloft.Text

/-- Why a file cannot be read. -/
inductive FileError where
  | notFound (path : String)
  | notDirectory (path : String)
  | isDirectory (path : String)
  | other (code : Nat) (reason : String) (path : String)
deriving DecidableEq, Repr

/-- The wording of the error, with the system's number for it. -/
def FileError.message : FileError → String
  | .notFound path => "[Errno 2] No such file or directory: " ++ quoted path
  | .notDirectory path => "[Errno 20] Not a directory: " ++ quoted path
  | .isDirectory path => "[Errno 21] Is a directory: " ++ quoted path
  | .other code reason path => "[Errno " ++ toString code ++ "] " ++ reason ++ ": " ++ quoted path

/-- The text of a file's bytes, with every line ending written as a line feed. -/
def fileText (bytes : List UInt8) : Except Utf8Error (List Char) :=
  normaliseNewlines <$> decodeUtf8 bytes

/-- Files by the names from the top of the tree, and the directory one is in. -/
structure FileTree where
  files : List (List (List Char) × List UInt8)
  cwd : List (List Char)

namespace FileTree

/-- The bytes of the file at a place. -/
def file? (tree : FileTree) (names : List (List Char)) : Option (List UInt8) :=
  tree.files.lookup names

/-- Is there a directory at a place? -/
def isDirectory (tree : FileTree) (names : List (List Char)) : Bool :=
  names.isPrefixOf tree.cwd || tree.files.any fun f => names.isPrefixOf f.1 && names ≠ f.1

/-- Goes from a place along some names; every place that is left must be a directory. -/
def walk (tree : FileTree) (path : String) (place : List (List Char)) :
    List (List Char) → Except FileError (List (List Char))
  | [] => .ok place
  | name :: names =>
    if tree.isDirectory place then
      walk tree path (if name = ['.', '.'] then place.dropLast else place ++ [name]) names
    else if (tree.file? place).isSome then .error (.notDirectory path)
    else .error (.notFound path)

/-- The bytes of the file at a path. -/
def read (tree : FileTree) (path : Path) : Except FileError (List UInt8) := do
  let start := if path.root = .relative then tree.cwd else []
  let place ← tree.walk path.render start path.names
  if tree.isDirectory place then throw (.isDirectory path.render)
  else
    match tree.file? place with
    | some bytes => return bytes
    | none => throw (.notFound path.render)

/-- Is there a file at a path? -/
def isFile (tree : FileTree) (path : Path) : Bool :=
  match tree.read path with
  | .ok _ => true
  | .error _ => false

end FileTree

end Polyloft
