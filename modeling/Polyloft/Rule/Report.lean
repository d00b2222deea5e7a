import Polyloft.Rule.Declared
import Polyloft.Rule.Flow
import Polyloft.Rule.Spelling
import Polyloft.Rule.Structure
import Polyloft.Rule.Typing

/-!
# Polyloft.Rule.Report

The registry of rules, and the report that running them makes: the diagnostics in order and without
repetition, as many as the settings allow, and the rules that failed. Rules run one after the other
on the memo that the rules before them left, also behind a rule that failed.
-/

namespace Polyloft

/-- Every rule, in the order in which they run. -/
def Rule.all : List Rule :=
  [.unterminatedString, .unmatchedBrace, .missingEnd, .strayEnd, .invalidFunctionHeader,
    .classNaming, .danglingMarker, .multipleDeclarators, .duplicateDeclaration,
    .constReassignment, .thisOutsideClass, .returnOutsideFunction, .breakOutsideLoop,
    .untypedParameter, .unusedImport, .indentation, .unreachableCode, .assignmentTypeMismatch,
    .incompatibleComparison, .divisionByZero, .unknownMember, .wordOperator, .twoDotRange,
    .dollarInterpolation, .missedInterpolation]

/-- Something that goes wrong without stopping the analysis. -/
inductive Warning where
  | unknownRules (names : List String)
  | ruleFailed (name : String)
deriving DecidableEq, Repr

/-- The wording of a warning. -/
def Warning.message : Warning → String
  | .unknownRules names => "ignoring unknown disabled rules: " ++ ", ".intercalate names
  | .ruleFailed name => "rule " ++ name ++ " failed; continuing without it"

/-- What running rules gives. -/
structure Report where
  diagnostics : List Diagnostic
  warnings : List Warning
deriving DecidableEq, Repr

namespace Report

/-- Adds a diagnostic that is not there yet. -/
def insertNew (found : List Diagnostic) (d : Diagnostic) : List Diagnostic :=
  if d ∈ found then found else found ++ [d]

/-- Each diagnostic once, in order. -/
def arrange (ds : List Diagnostic) : List Diagnostic :=
  (ds.foldl insertNew []).mergeSort Diagnostic.le

/-- The first `limit` diagnostics; zero keeps all, and a negative limit leaves out as many at the
end. -/
def cap (limit : Int) (ds : List Diagnostic) : List Diagnostic :=
  if limit = 0 then ds
  else if 0 < limit then ds.take limit.toNat
  else ds.take (ds.length - limit.natAbs)

/-- Runs the enabled rules one after the other: what they found, and which of them failed. -/
def collect (ctx : RuleContext) : List Rule → StateM Memo (List Diagnostic × List Warning)
  | [] => pure ([], [])
  | r :: rs =>
    if ctx.settings.ruleEnabled r.name r.code then do
      let result ← ExceptT.run (r.run ctx)
      let (ds, ws) ← collect ctx rs
      match result with
      | .ok found => pure (found ++ ds, ws)
      | .error _ => pure (ds, .ruleFailed r.name :: ws)
    else collect ctx rs

/-- The report of some rules. -/
def ofRules (ctx : RuleContext) (rules : List Rule) : StateM Memo Report := do
  let (ds, warnings) ← collect ctx rules
  pure ⟨cap ctx.settings.maxDiagnostics (arrange ds), warnings⟩

end Report

end Polyloft
