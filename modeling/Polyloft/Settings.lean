import Polyloft.Failure
import Polyloft.Value

/-!
# Polyloft.Settings

What can be set about the diagnostics: whether there are any, which rules are left out, the width
of an indentation step and how many findings are kept. Settings come from an editor as structured
data; the first problem with them is reported, in the fixed order in which they are read.
-/

namespace Polyloft

/-- The settings of the diagnostic pass. A `maxDiagnostics` of zero keeps all findings. -/
structure Settings where
  enabled : Bool := true
  disabledRules : List String := []
  indentWidth : Int := 4
  checkIndentation : Bool := true
  maxDiagnostics : Int := 0
deriving DecidableEq, Repr

/-- A value that is out of range. -/
inductive SettingsProblem where
  | indentWidth
  | maxDiagnostics
deriving DecidableEq, Repr

/-- What is wrong with the value. -/
def SettingsProblem.message : SettingsProblem → String
  | .indentWidth => "indent_width must be positive"
  | .maxDiagnostics => "max_diagnostics must be non-negative"

namespace Settings

/-- The values out of range. -/
def problems (s : Settings) : List SettingsProblem :=
  (if s.indentWidth ≤ 0 then [.indentWidth] else []) ++
    (if s.maxDiagnostics < 0 then [.maxDiagnostics] else [])

/-- Settings without a value out of range. -/
def IsValid (s : Settings) : Prop :=
  0 < s.indentWidth ∧ 0 ≤ s.maxDiagnostics

instance (s : Settings) : Decidable s.IsValid :=
  inferInstanceAs (Decidable (0 < s.indentWidth ∧ 0 ≤ s.maxDiagnostics))

theorem problems_eq_nil_iff (s : Settings) : s.problems = [] ↔ s.IsValid := by
  unfold problems IsValid
  split <;> split <;> simp <;> omega

/-- Is the rule with this name and code to be run? -/
def ruleEnabled (s : Settings) (name code : String) : Bool :=
  if name == "indentation" && !s.checkIndentation then false
  else !s.disabledRules.contains name && !s.disabledRules.contains code

/-- Every rule is run but those listed by name or code, and indentation where it is not checked. -/
theorem ruleEnabled_iff {s : Settings} {name code : String} :
    s.ruleEnabled name code = true ↔
      (name = "indentation" → s.checkIndentation = true) ∧
        name ∉ s.disabledRules ∧ code ∉ s.disabledRules := by
  unfold ruleEnabled
  split
  · rename_i h
    simp only [Bool.and_eq_true, beq_iff_eq, Bool.not_eq_true'] at h
    simp [h.1, h.2]
  · rename_i h
    have hchecked : name = "indentation" → s.checkIndentation = true := by simpa using h
    simpa using fun _ _ => hchecked

end Settings

/-! ### Reading -/

/-- Why settings are refused. -/
inductive SettingsError where
  | notBoolean (key : String) (kind : String)
  | notInteger (key : String) (kind : String)
  | notRuleNames
  | notIterable (kind : String)
  | outOfRange (key : String) (problems : List SettingsProblem)
deriving DecidableEq, Repr

/-- The setting that lists the rules to leave out. -/
def disabledRulesKey : String := "linting.disabledRules"

namespace SettingsError

/-- The error as a failure about one setting. -/
def failure : SettingsError → Failure
  | .notBoolean key kind => ⟨.setting key, "expected a boolean, got " ++ kind, none⟩
  | .notInteger key kind => ⟨.setting key, "expected an integer, got " ++ kind, none⟩
  | .notRuleNames => ⟨.setting disabledRulesKey, "expected a list of rule names", none⟩
  | .notIterable kind => ⟨.general, "'" ++ kind ++ "' object is not iterable", none⟩
  | .outOfRange key problems =>
    ⟨.setting key, "; ".intercalate (problems.map SettingsProblem.message), none⟩

/-- The wording of the error. -/
def message (e : SettingsError) : String :=
  e.failure.message

end SettingsError

namespace Settings

/-- A setting that is true or false. -/
def readBool (v : Value) (key : String) (dflt : Bool) : Except SettingsError Bool :=
  match v.get? key with
  | none => .ok dflt
  | some (.bool b) => .ok b
  | some other => .error (.notBoolean key other.kindName)

/-- A setting that is a whole number. -/
def readInt (v : Value) (key : String) (dflt : Int) : Except SettingsError Int :=
  match v.get? key with
  | none => .ok dflt
  | some (.int n) => .ok n
  | some other => .error (.notInteger key other.kindName)

/-- The text of a value that is one. -/
def ruleName? : Value → Option String
  | .str s => some s
  | _ => none

/-- The names of rules: a list of texts, or the names of an object's fields. -/
def readRules (v : Value) : Except SettingsError (List String) :=
  match v.get? disabledRulesKey with
  | none => .ok []
  | some (.str _) => .error .notRuleNames
  | some (.list items) =>
    match items.mapM ruleName? with
    | some names => .ok names.eraseDups
    | none => .error .notRuleNames
  | some (.object fields) =>
    match fields.mapM fun f => ruleName? (.scalar f.1) with
    | some names => .ok names
    | none => .error .notRuleNames
  | some (.scalar other) => .error (.notIterable other.kindName)

/-- Refuses settings with values out of range. -/
def check (s : Settings) (key : String) : Except SettingsError Settings :=
  match s.problems with
  | [] => .ok s
  | problems => .error (.outOfRange key problems)

/-- The settings an editor sends; fields it does not send keep their defaults, and other fields
are ignored. -/
def ofValue (v : Value) : Except SettingsError Settings := do
  let enabled ← readBool v "linting.enabled" true
  let checkIndentation ← readBool v "linting.checkIndentation" true
  let indentWidth ← readInt v "linting.indentWidth" 4
  let maxDiagnostics ← readInt v "linting.maxDiagnostics" 0
  let disabledRules ← readRules v
  check { enabled, disabledRules, indentWidth, checkIndentation, maxDiagnostics } "linting"

end Settings

end Polyloft
