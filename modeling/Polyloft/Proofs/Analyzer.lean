import Polyloft.Analyzer
import Polyloft.Proofs.Catalog.Json
import Polyloft.Proofs.Query.Total
import Polyloft.Proofs.Rule.Total

/-!
# Polyloft.Proofs.Analyzer

The analyzer does not fail on any text. Texts come from editors and may be cut off or malformed
anywhere, positions may lie outside of them, and the resolver may fail: no rule meets a fault, and
every question has an answer. What is asked of the settings is that they are in range, which every
analyzer carries; what is asked of the catalog is that it was read from JSON.
-/

namespace Polyloft

namespace Analyzer

/-- No rule fails in the report on a text. -/
theorem warnings_analyze (z : Analyzer) (text : List Char) (uri : Option String) :
    (z.analyze text uri).warnings = [] := by
  unfold analyze
  split
  · have hrules : ∀ r ∈ Rule.all,
        Infer.Returns (fun _ => True) (r.check ⟨z.prepare text uri, z.settings⟩) := by
      intro r hr
      exact Rule.returns_check (Analysis.isRead_ofText text uri z.catalog) z.isValid.1 hr
    exact Report.warnings_collect_eq_nil hrules Memo.wellTyped_empty
  · rfl

/-- The report on a text has no failed rule, and every question about the text has an answer. -/
theorem answers_on_every_text (z : Analyzer) {data : Value} (hdata : data.IsJson)
    (hcatalog : Catalog.ofValue data = .ok z.catalog) (text : List Char) (uri : Option String) :
    (z.analyze text uri).warnings = [] ∧
      ∀ (position : Position) (word : Option String),
        (∃ shown, z.hover text uri position word = .ok shown) ∧
        (∃ place, z.definition text uri position word = .ok place) ∧
        ∃ items, z.complete text uri position = .ok items := by
  refine ⟨z.warnings_analyze text uri, ?_⟩
  intro position word
  have hread : (z.prepare text uri).IsRead := Analysis.isRead_ofText text uri z.catalog
  have hnamed : ∀ p ∈ (z.prepare text uri).catalog.packages, ∃ name, p.name = .str name :=
    fun p hp => Catalog.named_of_mem_packages hdata hcatalog hp
  obtain ⟨shown, hshown, -⟩ :=
    (Analysis.returns_hover hread position word z.resolver).exists_answer_eq_ok
  obtain ⟨place, hplace, -⟩ :=
    (Analysis.returns_definition hread position word z.resolver).exists_answer_eq_ok
  obtain ⟨items, hitems, -⟩ :=
    (Analysis.returns_complete hread hnamed position).exists_answer_eq_ok
  exact ⟨⟨shown, hshown⟩, ⟨place, hplace⟩, ⟨items, hitems⟩⟩

/-- JSON with one package and nothing in it. -/
def packageData : Value :=
  .object [(.str "packages", .object [(.str "Math", .object [])])]

theorem isJson_packageData : packageData.IsJson := by
  refine .object (by simp) ?_
  simp only [List.mem_singleton, forall_eq]
  refine .object (by simp) ?_
  simp only [List.mem_singleton, forall_eq]
  exact .object (by simp) (by simp)

theorem isValid_default : Settings.IsValid {} := by
  decide

/-- An analyzer that knows one package and whose resolver always fails. -/
def unresolving : Analyzer where
  catalog := { packages := [⟨.str "Math", "", [], []⟩] }
  settings := {}
  resolver := Resolver.failing
  isValid := isValid_default

/-- A text with an open bracket, a division by zero and an end too many. -/
theorem answers_on_malformed :
    let text := "def f(:\n  return g(1 / 0\nend\nend".toList
    packageData.IsJson ∧ Catalog.ofValue packageData = .ok unresolving.catalog ∧
      (unresolving.analyze text none).warnings = [] ∧
      ∀ (position : Position) (word : Option String),
        (∃ shown, unresolving.hover text none position word = .ok shown) ∧
        (∃ place, unresolving.definition text none position word = .ok place) ∧
        ∃ items, unresolving.complete text none position = .ok items := by
  intro text
  have hcatalog : Catalog.ofValue packageData = .ok unresolving.catalog := rfl
  exact ⟨isJson_packageData, hcatalog,
    answers_on_every_text unresolving isJson_packageData hcatalog text none⟩

end Analyzer

end Polyloft
