import Polyloft.Query.Completion
import Polyloft.Query.Definition
import Polyloft.Query.Hover
import Polyloft.Rule.Report

/-!
# Polyloft.Analyzer

The analyzer that hosts use: a catalog, valid settings and a resolver, chosen once. Every question
is answered from a fresh analysis of the text, so answers do not depend on each other.
-/

namespace Polyloft

/-- The version of the analyzer. -/
def analyzerVersion : String := "0.1.0"

/-- An analyzer; its settings are in range. -/
structure Analyzer where
  catalog : Catalog
  settings : Settings
  resolver : Resolver
  isValid : settings.IsValid

namespace Analyzer

/-- The rules to leave out that are neither the name nor the code of a rule, in order. -/
def unknownRules (settings : Settings) : List String :=
  (settings.disabledRules.filter fun name =>
    !Rule.all.any fun r => r.name == name || r.code == name).mergeSort fun a b => decide (a ≤ b)

/-- What is to be said about the settings. -/
def settingsWarnings (settings : Settings) : List Warning :=
  match unknownRules settings with
  | [] => []
  | names => [.unknownRules names]

/-- An analyzer, if the settings are in range. -/
def create (catalog : Catalog) (settings : Settings) (resolver : Resolver) :
    Except SettingsError Analyzer :=
  match h : settings.problems with
  | [] => .ok ⟨catalog, settings, resolver, settings.problems_eq_nil_iff.1 h⟩
  | problems => .error (.outOfRange "config" problems)

/-- The analysis of a text. -/
def prepare (z : Analyzer) (text : List Char) (uri : Option String) : Analysis :=
  Analysis.ofText text uri z.catalog

/-- The report on a text. -/
def analyze (z : Analyzer) (text : List Char) (uri : Option String) : Report :=
  if z.settings.enabled then
    ((Report.ofRules ⟨z.prepare text uri, z.settings⟩ Rule.all).run {}).1
  else ⟨[], []⟩

/-- What is shown for the word at a position. -/
def hover (z : Analyzer) (text : List Char) (uri : Option String) (position : Position)
    (word : Option String) : Except Fault (Option Hover) :=
  ((z.prepare text uri).hover position word z.resolver).answer

/-- Where the word at a position is declared. -/
def definition (z : Analyzer) (text : List Char) (uri : Option String) (position : Position)
    (word : Option String) : Except Fault (Option Location) :=
  ((z.prepare text uri).definition position word z.resolver).answer

/-- What can be written at a position. -/
def complete (z : Analyzer) (text : List Char) (uri : Option String) (position : Position) :
    Except Fault (List CompletionItem) :=
  ((z.prepare text uri).complete position).answer

end Analyzer

end Polyloft
