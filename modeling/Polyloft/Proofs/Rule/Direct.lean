import Polyloft.Analyzer
import Polyloft.Proofs.Rule.Independent

/-!
# Polyloft.Proofs.Rule.Direct

Rules that ask for no types. What such a rule finds does not depend on the memo, and it leaves the
memo alone; so it finds the same wherever it stands among other rules. As diagnostics carry the code
of their rule, those of a report that carry its code are its findings
(`Analyzer.mem_diagnostics_iff_of_finds`).
-/

namespace Polyloft

/-- The rule has these findings, whatever is remembered, and remembers nothing. -/
def Rule.Finds (r : Rule) (ctx : RuleContext) (findings : List Finding) : Prop :=
  ∀ memo, (r.check ctx).after memo = (.ok findings, memo)

theorem Rule.finds_of_check_eq_pure {r : Rule} {ctx : RuleContext} {findings : List Finding}
    (h : r.check ctx = pure findings) : r.Finds ctx findings := by
  intro memo
  rw [h, Infer.after_pure]

theorem Rule.finds_of_check_eq_ofExcept {r : Rule} {ctx : RuleContext} {findings : List Finding}
    {x : Except Fault (List Finding)} (h : r.check ctx = Infer.ofExcept x)
    (hx : x = .ok findings) : r.Finds ctx findings := by
  intro memo
  rw [h, hx, Infer.after_ofExcept]

namespace Report

variable {ctx : RuleContext} {r : Rule} {rules : List Rule} {memo : Memo} {d : Diagnostic}
  {findings : List Finding}

theorem foundBy_of_finds (h : r.Finds ctx findings) (memo : Memo) :
    foundBy ctx [r] memo =
      if ctx.settings.ruleEnabled r.name r.code then findings.map r.diagnostic else [] := by
  rw [foundBy_singleton, h memo]

/-- The diagnostics with the code of the rule are its findings. -/
theorem mem_foundBy_iff_of_finds (hcodes : (rules.map Rule.code).Nodup) (hr : r ∈ rules)
    (h : r.Finds ctx findings) :
    (d ∈ foundBy ctx rules memo ∧ d.code = r.code) ↔
      ctx.settings.ruleEnabled r.name r.code = true ∧ ∃ f ∈ findings, d = r.diagnostic f := by
  have hsingle (memo : Memo) : d ∈ foundBy ctx [r] memo ↔
      ctx.settings.ruleEnabled r.name r.code = true ∧ ∃ f ∈ findings, d = r.diagnostic f := by
    rw [foundBy_of_finds h]
    split
    · rename_i henabled
      simp only [henabled, true_and, List.mem_map, eq_comm]
    · rename_i henabled
      simp [henabled]
  constructor
  · rintro ⟨hd, hcode⟩
    obtain ⟨before, s, after, rfl, hs⟩ := mem_foundBy_iff.1 hd
    obtain ⟨f, rfl⟩ := exists_finding hs
    -- Rules have different codes, so the diagnostic comes from `r` itself.
    obtain rfl : s = r := List.inj_on_of_nodup_map hcodes (by simp) hr hcode
    exact (hsingle _).1 hs
  · rintro hd
    obtain ⟨before, after, rfl⟩ := List.append_of_mem hr
    obtain ⟨f, -, rfl⟩ := hd.2
    exact ⟨mem_foundBy_iff.2 ⟨before, r, after, rfl, (hsingle _).2 hd⟩, rfl⟩

/-- Reports agree in the diagnostics of a kind if the rules found the same of that kind. -/
theorem filter_arrange_eq {p : Diagnostic → Bool} {ds es : List Diagnostic}
    (hcodes : (rules.map Rule.code).Nodup) (hof : ∀ d ∈ ds, d.IsOf rules)
    (h : ∀ d, p d = true → (d ∈ ds ↔ d ∈ es)) :
    (arrange ds).filter p = (arrange es).filter p := by
  refine eq_of_mem_iff hcodes ((nodup_arrange ds).filter p) ((nodup_arrange es).filter p)
    ((pairwise_arrange ds).filter p) ((pairwise_arrange es).filter p) ?_ ?_
  · intro d hd
    exact hof d (mem_arrange.1 (List.mem_filter.1 hd).1)
  · intro d
    rw [List.mem_filter, List.mem_filter, mem_arrange, mem_arrange]
    exact and_congr_left (h d)

end Report

namespace Analyzer

variable {z : Analyzer} {text : List Char} {uri : Option String}

theorem diagnostics_analyze (henabled : z.settings.enabled = true)
    (hmax : z.settings.maxDiagnostics = 0) :
    (z.analyze text uri).diagnostics =
      Report.arrange (Report.foundBy ⟨z.prepare text uri, z.settings⟩ Rule.all {}) := by
  rw [analyze, if_pos henabled]
  exact Report.diagnostics_ofRules hmax Rule.all {}

/-- The diagnostics of a report with the code of a rule are its findings, if nothing is left out. -/
theorem mem_diagnostics_iff_of_finds (henabled : z.settings.enabled = true)
    (hmax : z.settings.maxDiagnostics = 0) {r : Rule} (hr : r ∈ Rule.all)
    {findings : List Finding} (h : r.Finds ⟨z.prepare text uri, z.settings⟩ findings)
    {d : Diagnostic} :
    (d ∈ (z.analyze text uri).diagnostics ∧ d.code = r.code) ↔
      z.settings.ruleEnabled r.name r.code = true ∧ ∃ f ∈ findings, d = r.diagnostic f := by
  rw [diagnostics_analyze henabled hmax, Report.mem_arrange]
  exact Report.mem_foundBy_iff_of_finds Report.nodup_codes_all hr h

end Analyzer

end Polyloft
