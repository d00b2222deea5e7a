import Polyloft.CommandLine.Arguments

/-!
# Polyloft.CommandLine.Command

The commands of the tool and how they are written:

```text
check FILE...              [--format gcc|json] [--disable RULE]... [--indent-width N]
                           [--no-indentation] [--max-diagnostics N] [-v]
hover FILE LINE COL        [--format text|json] [-v]
definition FILE LINE COL   [-v]
complete FILE LINE COL     [--format text|json] [-v]
rules
```

Lines and columns count from one, and `-` in the place of a file is standard input.
-/

namespace Polyloft.CommandLine

open Polyloft.Text

/-- What is to be checked, and how. -/
structure CheckArgs where
  files : List String := []
  json : Bool := false
  disabledRules : List String := []
  indentWidth : Int := 4
  checkIndentation : Bool := true
  maxDiagnostics : Int := 0
deriving DecidableEq, Repr

/-- A place in a file, counted from one, and the form of the answer. -/
structure PlaceArgs where
  file : String := ""
  line : Int := 0
  column : Int := 0
  json : Bool := false
deriving DecidableEq, Repr

/-- A command with its arguments. -/
inductive Command where
  | check (args : CheckArgs)
  | hover (args : PlaceArgs)
  | definition (args : PlaceArgs)
  | complete (args : PlaceArgs)
  | rules
deriving DecidableEq, Repr

/-! ### Options -/

section

variable {α : Type}

/-- The option that asks for help. -/
def helpOption : Opt α := ⟨["-h", "--help"], .stop .help⟩

/-- The option that asks for more log output, which this tool does not write. -/
def verboseOption : Opt α := ⟨["-v", "--verbose"], .switch id⟩

/-- An option whose value is a whole number. -/
def integerOption (name : String) (set : α → Int → α) : Opt α :=
  ⟨[name], .value fun a s =>
    match readInteger? s.toList with
    | some n => .ok (set a n)
    | none => .error .usage⟩

/-- The option for the form of the answer: `plain` or JSON. -/
def formatOption (plain : String) (set : α → Bool → α) : Opt α :=
  ⟨["--format"], .value fun a s =>
    if s = plain then .ok (set a false)
    else if s = "json" then .ok (set a true)
    else .error .usage⟩

/-- A slot for one word. -/
def wordSlot (set : α → String → α) : Slot α :=
  ⟨.one, fun a words =>
    match words with
    | [w] => .ok (set a w, [])
    | _ => .error .usage⟩

/-- A slot for one whole number. -/
def integerSlot (set : α → Int → α) : Slot α :=
  ⟨.one, fun a words =>
    match words.map fun w => readInteger? w.toList with
    | [some n] => .ok (set a n, [])
    | _ => .error .usage⟩

end

/-- How `check` is written. -/
def checkSpec : Spec CheckArgs where
  options :=
    [helpOption, formatOption "gcc" fun a json => { a with json },
      ⟨["--disable"], .value fun a rule =>
        .ok { a with disabledRules := a.disabledRules ++ [rule] }⟩,
      integerOption "--indent-width" fun a indentWidth => { a with indentWidth },
      ⟨["--no-indentation"], .switch fun a => { a with checkIndentation := false }⟩,
      integerOption "--max-diagnostics" fun a maxDiagnostics => { a with maxDiagnostics },
      verboseOption]
  slots := [⟨.many, fun a files => .ok ({ a with files }, [])⟩]

/-- The slots of a command about a place. -/
def placeSlots : List (Slot PlaceArgs) :=
  [wordSlot fun a file => { a with file }, integerSlot fun a line => { a with line },
    integerSlot fun a column => { a with column }]

/-- How `definition` is written. -/
def definitionSpec : Spec PlaceArgs :=
  ⟨[helpOption, verboseOption], placeSlots⟩

/-- How `hover` and `complete` are written. -/
def placeSpec : Spec PlaceArgs :=
  ⟨[helpOption, verboseOption, formatOption "text" fun a json => { a with json }], placeSlots⟩

/-- How `rules` is written. -/
def rulesSpec : Spec Unit :=
  ⟨[helpOption], []⟩

/-- Reads the arguments of the command with a given name. -/
def readCommand (name : String) (args : List String) : Except Stop (Command × List String) :=
  match name with
  | "check" => (fun r => (.check r.1, r.2)) <$> checkSpec.readAll {} args
  | "hover" => (fun r => (.hover r.1, r.2)) <$> placeSpec.readAll {} args
  | "definition" => (fun r => (.definition r.1, r.2)) <$> definitionSpec.readAll {} args
  | "complete" => (fun r => (.complete r.1, r.2)) <$> placeSpec.readAll {} args
  | "rules" => (fun r => (.rules, r.2)) <$> rulesSpec.readAll () args
  | _ => .error .usage

/-- How a command line is written: options of the tool, then a command with its own arguments. -/
def toolSpec : Spec (Option Command) where
  options := [helpOption, ⟨["--version"], .stop .version⟩]
  slots :=
    [⟨.rest, fun _ words =>
      match words with
      | [] => .error .usage
      | name :: args => (fun r => (some r.1, r.2)) <$> readCommand name args⟩]

/-- The command that arguments denote. Without a command help is given, and arguments that nothing
takes are a fault. -/
def Command.ofArguments (args : List String) : Except Stop Command := do
  let s ← toolSpec.read none args
  if !s.extras.isEmpty then throw .usage
  else
    match s.record with
    | some c => return c
    | none => throw .help

end Polyloft.CommandLine
