import Polyloft.Diagnostic
import Polyloft.Inference
import Polyloft.Settings

/-!
# Polyloft.Rule

Diagnostic rules. A rule has a stable name, a code and a severity, and computes findings from an
analysed document and the settings. Rules never see each other's findings; the only thing they
share is the memo of inferred types. A rule may meet a fault, and then it contributes nothing.
-/

namespace Polyloft

/-- Where something is wrong, and what. -/
structure Finding where
  range : Range
  message : String
deriving DecidableEq, Repr

/-- What rules work from. -/
structure RuleContext where
  analysis : Analysis
  settings : Settings

/-- A diagnostic rule. -/
structure Rule where
  name : String
  code : String
  severity : Severity
  description : String
  check : RuleContext → Infer (List Finding)

namespace Rule

/-- A rule that looks at the document only. -/
def ofFindings (name code : String) (severity : Severity) (description : String)
    (findings : Analysis → List Finding) : Rule :=
  { name, code, severity, description, check := fun ctx => pure (findings ctx.analysis) }

/-- A rule that infers no types, but may meet a fault. -/
def ofChecks (name code : String) (severity : Severity) (description : String)
    (findings : RuleContext → Except Fault (List Finding)) : Rule :=
  { name, code, severity, description, check := fun ctx => Infer.ofExcept (findings ctx) }

/-- A rule that infers types. -/
def ofInference (name code : String) (severity : Severity) (description : String)
    (findings : Analysis → Infer (List Finding)) : Rule :=
  { name, code, severity, description, check := fun ctx => findings ctx.analysis }

/-- A finding of the rule as a diagnostic. -/
def diagnostic (r : Rule) (f : Finding) : Diagnostic :=
  ⟨f.range, f.message, r.severity, r.code, r.name⟩

/-- The diagnostics of a rule in its own order. -/
def run (r : Rule) (ctx : RuleContext) : Infer (List Diagnostic) := do
  return (← r.check ctx).map r.diagnostic

end Rule

/-! ### Places -/

/-- The place of a token. -/
def Token.range (t : Token) : Range :=
  ⟨t.line, t.column, t.stop⟩

/-- The place from a token through another one on its line. -/
def Token.rangeTo (t last : Token) : Range :=
  ⟨t.line, t.column, last.stop⟩

/-- The place of a declared name. -/
def Declaration.range (d : Declaration) : Range :=
  ⟨d.line, d.column, d.stopColumn⟩

/-- The code of a line, without the blanks around it. -/
def Line.codeRange (l : Line) : Range :=
  Range.ofLine l.index l.code

/-! ### Neighbours -/

/-- A token with the tokens before it, nearest first, and the tokens after it. -/
structure Spot where
  before : List Token
  token : Token
  after : List Token

namespace Spot

/-- The token just before. -/
def previous? (s : Spot) : Option Token := s.before.head?

/-- The token just after. -/
def next? (s : Spot) : Option Token := s.after.head?

/-- The token before the previous one. -/
def beforePrevious? (s : Spot) : Option Token := s.before.tail.head?

/-- The token after the next one. -/
def afterNext? (s : Spot) : Option Token := s.after.tail.head?

end Spot

/-- The tokens of a sequence with their neighbours, when those in `before` came first. -/
def spotsAfter (before : List Token) : List Token → List Spot
  | [] => []
  | t :: ts => ⟨before, t, ts⟩ :: spotsAfter (t :: before) ts

/-- The tokens of a sequence with their neighbours. -/
def spots (tokens : List Token) : List Spot :=
  spotsAfter [] tokens

/-- Operators that change the variable before them. -/
def assignmentOperators : List String :=
  ["=", "+=", "-=", "*=", "/=", "%=", "++", "--"]

/-- A statement that assigns to a plain name: the name, the operator and what follows. -/
def assignment? : List Token → Option (Token × Token × List Token)
  | name :: op :: rest =>
    if name.kind == .identifier && op.kind == .operator && assignmentOperators.contains op.text then
      some (name, op, rest)
    else none
  | _ => none

/-- Words that start a declaration. -/
def declarationWords : List String :=
  ["def", "class", "enum", "record", "interface", "var", "let", "const", "final"]

end Polyloft
