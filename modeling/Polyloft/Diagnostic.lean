import Polyloft.Text.Blank

/-!
# Polyloft.Diagnostic

Findings about a document: where, what, how severe, and by which rule. A diagnostic is ordered by
place first, then by code and message.
-/

namespace Polyloft

open Polyloft.Text

/-- How severe a finding is. -/
inductive Severity where
  | error
  | warning
  | hint
deriving DecidableEq, Repr

namespace Severity

/-- The word for a severity in reports. -/
def label : Severity → String
  | .error => "error"
  | .warning => "warning"
  | .hint => "hint"

/-- The severity a word stands for. -/
def ofLabel? : String → Option Severity
  | "error" => some .error
  | "warning" => some .warning
  | "hint" => some .hint
  | _ => none

/-- Errors come first, hints last. -/
def rank : Severity → Nat
  | .error => 0
  | .warning => 1
  | .hint => 2

end Severity

/-- Columns `start` to `stop` of a line, counted from zero. -/
structure Range where
  line : Int
  start : Int
  stop : Int
deriving DecidableEq, Repr

namespace Range

/-- The part of a line between its outermost blanks. -/
def ofLine (line : Int) (text : List Char) : Range :=
  let trimmed := stripEnd text
  ⟨line, leadingBlanks trimmed, trimmed.length⟩

/-- The start of a range as people count: from one. -/
def render (r : Range) : String :=
  toString (r.line + 1) ++ ":" ++ toString (r.start + 1)

end Range

/-- A finding. -/
structure Diagnostic where
  range : Range
  message : String
  severity : Severity
  code : String := ""
  rule : String := ""
deriving DecidableEq, Repr

/-- The tool that diagnostics name as their source. -/
def diagnosticSource : String := "polyloft"

namespace Diagnostic

/-- The order of diagnostics: by line, start, end, code and message. -/
def compareKey (a b : Diagnostic) : Ordering :=
  (compare a.range.line b.range.line).then <|
  (compare a.range.start b.range.start).then <|
  (compare a.range.stop b.range.stop).then <|
  (compare a.code b.code).then <|
  compare a.message b.message

/-- Does `a` come before `b`, or at the same place in the order? -/
def le (a b : Diagnostic) : Bool :=
  (compareKey a b).isLE

/-- One line of a report: `file:line:column: severity: [code] message`. -/
def render (d : Diagnostic) (file : Option String) : String :=
  let place := match file with
    | none => d.range.render
    | some f => if f = "" then d.range.render else f ++ ":" ++ d.range.render
  let code := if d.code = "" then "" else "[" ++ d.code ++ "] "
  place ++ ": " ++ d.severity.label ++ ": " ++ code ++ d.message

end Diagnostic

end Polyloft
