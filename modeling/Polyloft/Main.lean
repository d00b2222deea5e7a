import Polyloft.CommandLine

/-!
# Polyloft.Main

The command line program. Everything it decides is decided in `Polyloft.CommandLine`; here files
are read and texts are written.
-/

namespace Polyloft.CommandLine

/-- The reason why the system refused to read a file. -/
def fileErrorOf (path : String) : IO.Error → FileError
  | .noFileOrDirectory .. => .notFound path
  | .inappropriateType _ code reason => .other code.toNat reason path
  | .permissionDenied _ code reason => .other code.toNat reason path
  | e => .other 0 (toString e) path

/-- Reads a file of the system. -/
def readSystemFile (path : Path) : IO (Except FileError (List UInt8)) := do
  match ← (IO.FS.readBinFile path.render).toBaseIO with
  | .ok bytes => return .ok bytes.toList
  | .error e => return .error (fileErrorOf path.render e)

/-- The system's files. -/
def systemFiles : FileAccess IO where
  read := readSystemFile
  isFile path := do
    match ← readSystemFile path with
    | .ok _ => return true
    | .error _ => return false

/-- All of standard input. -/
def readStdin : IO (List UInt8) := do
  return (← (← IO.getStdin).readToEnd).toUTF8.toList

end Polyloft.CommandLine

open Polyloft
open Polyloft.CommandLine

/-- Runs the tool on the system's files and prints what it says. -/
def main (args : List String) : IO UInt32 := do
  let isTerminal ← (← IO.getStdout).isTty
  let noColour := (← IO.getEnv "NO_COLOR").isSome
  let host : Host IO :=
    { files := systemFiles
      stdin := readStdin
      cwd := Path.ofString (← IO.currentDir).toString
      colours := isTerminal && !noColour }
  let outcome ← run host args
  for w in outcome.warnings do
    IO.eprintln ("WARNING: " ++ w.message)
  IO.print outcome.stdout
  IO.eprint outcome.stderr
  return outcome.exit.toUInt32
