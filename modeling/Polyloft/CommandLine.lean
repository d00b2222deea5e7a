import Polyloft.Analyzer
import Polyloft.Catalog.Standard
import Polyloft.CommandLine.Command
import Polyloft.Json
import Polyloft.Module.Directory

/-!
# Polyloft.CommandLine

What the commands print. A command runs against a host that reads files and standard input; the
rest is pure. Diagnostics are printed one a line or as JSON, and the exit status tells whether
there were errors. Imports are looked for in the directory of the file that is analysed.
-/

namespace Polyloft.CommandLine

open Polyloft.Text

/-- What a run leaves: the exit status, what it printed, and warnings. -/
structure Outcome where
  exit : Nat
  stdout : String := ""
  stderr : String := ""
  warnings : List Warning := []
deriving DecidableEq, Repr

/-- What commands run against. -/
structure Host (m : Type → Type) where
  files : FileAccess m
  stdin : m (List UInt8)
  cwd : Path
  colours : Bool

/-- Why a source could not be read. -/
inductive SourceError where
  | file (e : FileError)
  | encoding (e : Utf8Error)
deriving DecidableEq, Repr

/-- The wording of the error. -/
def SourceError.message : SourceError → String
  | .file e => e.message
  | .encoding e => e.message

/-- A run that a fault ended. -/
def Outcome.fault (message : String) : Outcome :=
  { exit := 2, stderr := "Error: " ++ message ++ "\n" }

section

variable {m : Type → Type} [Monad m]

/-- The text of a file, or of standard input. -/
def readSource (host : Host m) (file : String) : m (Except SourceError (List Char)) := do
  let bytes ← if file = "-" then Except.ok <$> host.stdin else host.files.read (Path.ofString file)
  match bytes with
  | .error e => pure (.error (.file e))
  | .ok bytes => pure ((fileText bytes).mapError .encoding)

/-- The directory in which the imports of a file are looked for. -/
def importRoot (host : Host m) (file : String) : Path :=
  if file = "-" then host.cwd else ((Path.ofString file).resolve host.cwd).parent

end

/-! ### Checking -/

/-- The settings that arguments ask for. -/
def CheckArgs.settings (args : CheckArgs) : Settings :=
  { disabledRules := args.disabledRules.eraseDups
    indentWidth := args.indentWidth
    checkIndentation := args.checkIndentation
    maxDiagnostics := args.maxDiagnostics }

/-- The name under which a file is reported. -/
def reportName (file : String) : String :=
  if file = "-" then "<stdin>" else file

/-- What checking a file gave. A fault ends the run. -/
inductive Checked where
  | unreadable (e : FileError)
  | fault (message : String)
  | done (report : Report)

/-- Checks a text. -/
def checkText (args : CheckArgs) (file : String) (text : List Char) : Checked :=
  match Analyzer.create Catalog.standard args.settings .none with
  | .error e => .fault e.message
  | .ok z =>
    let report := z.analyze text (some (reportName file))
    .done { report with warnings := Analyzer.settingsWarnings args.settings ++ report.warnings }

/-- Checks files one after the other, up to a fault. -/
def checkFiles {m : Type → Type} [Monad m] (host : Host m) (args : CheckArgs) :
    List String → m (List (String × Checked))
  | [] => pure []
  | file :: files => do
    match ← readSource host file with
    | .error (.encoding e) => pure [(file, .fault e.message)]
    | .error (.file e) => return (file, .unreadable e) :: (← checkFiles host args files)
    | .ok text =>
      match checkText args file text with
      | .fault message => pure [(file, .fault message)]
      | c => return (file, c) :: (← checkFiles host args files)

/-- Terminal codes. -/
def escapeCode (code : String) : String := "\x1b[" ++ code ++ "m"

/-- The colour of a severity. -/
def severityColour : Severity → String
  | .error => escapeCode "31"
  | .warning => escapeCode "33"
  | .hint => escapeCode "36"

/-- A text with the first occurrence of `old` replaced by `new`. -/
def replaceFirst (old new : List Char) : List Char → List Char
  | [] => []
  | c :: cs =>
    if old.isPrefixOf (c :: cs) then new ++ (c :: cs).drop old.length
    else c :: replaceFirst old new cs

/-- The line that reports a diagnostic; with colours its severity stands out. -/
def diagnosticLine (colours : Bool) (name : String) (d : Diagnostic) : String :=
  let line := d.render (some name)
  let word := d.severity.label
  if colours then
    String.ofList (replaceFirst (": " ++ word ++ ":").toList
      (": " ++ severityColour d.severity ++ escapeCode "1" ++ word ++ escapeCode "0" ++ ":").toList
      line.toList) ++ "\n"
  else line ++ "\n"

/-- A diagnostic as JSON. -/
def diagnosticJson (d : Diagnostic) : Json :=
  .object [("line", .int d.range.line), ("startColumn", .int d.range.start),
    ("endColumn", .int d.range.stop), ("message", .str d.message),
    ("severity", .str d.severity.label), ("code", .str d.code), ("rule", .str d.rule),
    ("source", .str diagnosticSource)]

/-- The files that were checked, as JSON. -/
def reportJson (results : List (String × Checked)) : Json :=
  .list (results.filterMap fun (file, c) =>
    match c with
    | .done report => some (.object [("file", .str (reportName file)),
        ("diagnostics", .list (report.diagnostics.map diagnosticJson))])
    | _ => none)

/-- What is printed about one file on standard output, when each diagnostic is a line. -/
def checkedLines (colours : Bool) (file : String) : Checked → String
  | .done report => String.join (report.diagnostics.map (diagnosticLine colours (reportName file)))
  | _ => ""

/-- What is printed about one file on standard error. -/
def checkedErrors (colours : Bool) (file : String) : Checked → String
  | .unreadable e =>
    let word := if colours then escapeCode "31" ++ "Error:" ++ escapeCode "0" else "Error:"
    word ++ " cannot read " ++ file ++ ": " ++ e.message ++ "\n"
  | .fault message => "Error: " ++ message ++ "\n"
  | .done _ => ""

/-- The warnings about one file. -/
def Checked.warnings : Checked → List Warning
  | .done report => report.warnings
  | _ => []

/-- A fault that ended the run. -/
def Checked.isFault : Checked → Bool
  | .fault _ => true
  | _ => false

/-- A file that could not be read, or with an error in it. -/
def Checked.isBad : Checked → Bool
  | .done report => report.diagnostics.any fun d => d.severity == .error
  | _ => true

/-- What checking files prints. JSON is printed at the end, so a fault leaves none. -/
def checkOutcome (colours json : Bool) (results : List (String × Checked)) : Outcome :=
  let faulty := results.any fun r => r.2.isFault
  { exit := if faulty then 2 else if results.any fun r => r.2.isBad then 1 else 0
    stdout :=
      if json then if faulty then "" else (reportJson results).render ++ "\n"
      else String.join (results.map fun (file, c) => checkedLines colours file c)
    stderr := String.join (results.map fun (file, c) => checkedErrors colours file c)
    warnings := results.flatMap fun r => r.2.warnings }

/-! ### Places -/

/-- The position that arguments denote, which count from one. -/
def PlaceArgs.position? (args : PlaceArgs) : Option Position :=
  if args.line < 1 || args.column < 1 then none else some ⟨args.line - 1, args.column - 1⟩

/-- An analyzer with the language's own catalog and the settings nobody changed. -/
def standardAnalyzer (resolver : Resolver) : Analyzer :=
  ⟨Catalog.standard, {}, resolver, by decide⟩

/-- A text with blanks behind it, up to a width. -/
def padRight (width : Nat) (s : String) : String :=
  s ++ String.ofList (List.replicate (width - s.length) ' ')

/-- A location as JSON; lines and columns count from one. -/
def locationJson (l : Location) : Json :=
  .object [("uri", Json.ofText? l.uri), ("line", .int (l.line + 1)),
    ("column", .int (l.column + 1))]

/-- What `hover` prints. -/
def hoverOutcome (json : Bool) : Option Hover → Outcome
  | none => { exit := 1, stderr := "no information at this position\n" }
  | some h =>
    if json then
      let location := match h.location with
        | some l => locationJson l
        | none => .null
      { exit := 0
        stdout := (Json.object [("signature", .str h.signature),
          ("documentation", Json.ofText? h.documentation), ("location", location)]).render ++ "\n" }
    else
      let documentation := match h.documentation with
        | some d => if d = "" then "" else "\n" ++ d ++ "\n"
        | none => ""
      { exit := 0, stdout := h.signature ++ "\n" ++ documentation }

/-- What `definition` prints. -/
def definitionOutcome (file : String) : Option Location → Outcome
  | none => { exit := 1, stderr := "no definition found\n" }
  | some l =>
    let uri := match l.uri with
      | some u => if u = "" then file else u
      | none => file
    { exit := 0
      stdout := uri ++ ":" ++ toString (l.line + 1) ++ ":" ++ toString (l.column + 1) ++ "\n" }

/-- A candidate as JSON. -/
def itemJson (i : CompletionItem) : Json :=
  .object [("label", .str i.label), ("kind", .str i.kind.label), ("detail", .str i.detail),
    ("documentation", Json.ofText? i.documentation)]

/-- What `complete` prints: the candidates in columns, or as JSON. -/
def completeOutcome (json : Bool) (items : List CompletionItem) : Outcome :=
  if json then { exit := 0, stdout := (Json.list (items.map itemJson)).render ++ "\n" }
  else
    let width := items.foldl (fun w i => max w i.label.length) 0
    { exit := 0
      stdout := String.join (items.map fun i =>
        padRight width i.label ++ "  " ++ padRight 12 i.kind.label ++ " " ++ i.detail ++ "\n") }

/-- What an answer prints; a fault ends the run. -/
def answerOutcome {α : Type} (outcome : α → Outcome) : Except Fault α → Outcome
  | .ok a => outcome a
  | .error e => .fault e.message

/-- Answers a question about a place in a file: `answer` gets the analyzer, the text and the
position. -/
def atPlace {m : Type → Type} [Monad m] (host : Host m) (args : PlaceArgs)
    (answer : Analyzer → List Char → Position → Outcome) : m Outcome := do
  match ← readSource host args.file with
  | .error e => pure (.fault e.message)
  | .ok text =>
    match args.position? with
    | none => pure (.fault "LINE and COL are 1-based")
    | some position =>
      let a := Analysis.ofText text (some args.file) Catalog.standard
      let modules := (a.table.imports.map ImportStatement.module).eraseDups
      let resolver ← Resolver.ofDirectory host.files (importRoot host args.file) modules
      pure (answer (standardAnalyzer resolver) text position)

/-! ### Commands -/

/-- The rules, one a line, in the order of their codes. -/
def rulesOutcome : Outcome :=
  let rules := Rule.all.mergeSort fun a b => decide (a.code ≤ b.code)
  { exit := 0
    stdout := String.join (rules.map fun r =>
      r.code ++ "  " ++ padRight 8 r.severity.label ++ " " ++ padRight 26 r.name ++ " " ++
        r.description ++ "\n") }

/-- Runs a command. -/
def Command.run {m : Type → Type} [Monad m] (host : Host m) : Command → m Outcome
  | .check args => do
    return checkOutcome host.colours args.json (← checkFiles host args args.files)
  | .hover args => atPlace host args fun z text position =>
      answerOutcome (hoverOutcome args.json) (z.hover text (some args.file) position none)
  | .definition args => atPlace host args fun z text position =>
      answerOutcome (definitionOutcome args.file) (z.definition text (some args.file) position none)
  | .complete args => atPlace host args fun z text position =>
      answerOutcome (completeOutcome args.json) (z.complete text (some args.file) position)
  | .rules => pure rulesOutcome

/-- What `--version` prints. -/
def versionText : String := "polyloft-analyzer " ++ analyzerVersion ++ "\n"

/-- How the tool is used. -/
def usageText : String :=
  "usage: polyloft-analyzer [-h] [--version] <command> ...\n\n" ++
    "  check FILE...             report diagnostics\n" ++
    "  hover FILE LINE COL       show the signature at a position\n" ++
    "  definition FILE LINE COL  show where a symbol is declared\n" ++
    "  complete FILE LINE COL    list completions at a position\n" ++
    "  rules                     list diagnostic rules\n"

/-- What is printed when reading the arguments stops early. -/
def Stop.outcome : Stop → Outcome
  | .usage => { exit := 2, stderr := usageText }
  | .help => { exit := 0, stdout := usageText }
  | .version => { exit := 0, stdout := versionText }

/-- Runs the tool on its arguments. -/
def run {m : Type → Type} [Monad m] (host : Host m) (args : List String) : m Outcome :=
  match Command.ofArguments args with
  | .ok command => command.run host
  | .error stop => pure stop.outcome

end Polyloft.CommandLine
