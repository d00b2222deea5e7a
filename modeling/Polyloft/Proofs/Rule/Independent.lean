import Polyloft.Proofs.Rule.Report
import Polyloft.Proofs.Rule.Typing

/-!
# Polyloft.Proofs.Rule.Independent

Do rules disturb each other? They share the memo of inferred types, and nothing else. A report is
the union of what its rules report alone exactly if each rule reports on the memo left by the rules
before it what it reports on the empty one (`diagnostics_eq_union_iff`). On an acyclic document this
holds for all rules in every order; then the order of the rules does not matter, and leaving rules
out removes their own diagnostics and no others. On a document with functions that call each other
it may fail: a type that was found while another function was still being looked at counts for good,
and which function that is depends on the rule that asks first (`disturbed_crossed`).

## Proof shape

Diagnostics carry the code of their rule, so a union can be taken apart again. Every rule is steady
on an acyclic document (`steady_check`): most rules infer no types, the others ask for types of
declarations and expressions only, which are steady.
-/

namespace Polyloft

open Analysis

/-! ### Rules are steady -/

/-- On an acyclic document no rule depends on the questions before. -/
theorem Rule.steady_check {ctx : RuleContext} (ha : ctx.analysis.table.Consistent)
    (hacyclic : ctx.analysis.IsAcyclic) {r : Rule} (hr : r ∈ Rule.all) :
    ctx.analysis.Steady (fun _ => True) (r.check ctx) := by
  have htypes (d : Declaration) (hd : d ∈ ctx.analysis.table.declarations) :
      ctx.analysis.steady.rel Ty.WellFormed (ctx.analysis.declarationType d)
        (ctx.analysis.declarationType d) := steady_declarationType ha hacyclic hd
  simp only [Rule.all, List.mem_cons, List.not_mem_nil, or_false] at hr
  rcases hr with rfl | rfl | rfl | rfl | rfl | rfl | rfl | rfl | rfl | rfl | rfl | rfl | rfl |
    rfl | rfl | rfl | rfl | rfl | rfl | rfl | rfl | rfl | rfl | rfl | rfl
  -- All but three rules infer no types.
  all_goals first
    | exact .pure trivial
    | exact .ofExcept _ fun _ _ => trivial
    | exact rel_assignmentTypeMismatch htypes
    | exact rel_incompatibleComparison htypes
    | exact rel_unknownMember htypes

/-- A rule reads the width of an indentation step, and no other setting. -/
theorem Rule.check_congr {r : Rule} (hr : r ∈ Rule.all) (a : Analysis) {s s' : Settings}
    (hwidth : s.indentWidth = s'.indentWidth) : r.check ⟨a, s⟩ = r.check ⟨a, s'⟩ := by
  simp only [Rule.all, List.mem_cons, List.not_mem_nil, or_false] at hr
  rcases hr with rfl | rfl | rfl | rfl | rfl | rfl | rfl | rfl | rfl | rfl | rfl | rfl | rfl |
    rfl | rfl | rfl | rfl | rfl | rfl | rfl | rfl | rfl | rfl | rfl | rfl
  all_goals first
    | rfl
    | simp only [Rule.indentation, Rule.ofChecks, hwidth]

/-! ### Reports as unions -/

namespace Report

/-- What a rule reports alone, when nothing is remembered yet. -/
def alone (ctx : RuleContext) (r : Rule) : List Diagnostic :=
  ((ofRules ctx [r]).run {}).1.diagnostics

/-- Each rule reports on the memo left by the rules before it what it reports alone. -/
def Undisturbed (ctx : RuleContext) (rules : List Rule) : Prop :=
  ∀ before r after, rules = before ++ r :: after →
    ((ofRules ctx [r]).run ((ofRules ctx before).run {}).2).1.diagnostics = alone ctx r

theorem memo_ofRules (ctx : RuleContext) (rules : List Rule) (memo : Memo) :
    ((ofRules ctx rules).run memo).2 = memoAfter ctx rules memo :=
  rfl

theorem nodup_codes_all : (Rule.all.map Rule.code).Nodup := by
  decide

theorem nodup_codes {rules : List Rule} (h : rules.Subperm Rule.all) :
    (rules.map Rule.code).Nodup := by
  obtain ⟨sub, hperm, hsub⟩ := h
  exact (hperm.map Rule.code).nodup_iff.1 ((hsub.map Rule.code).nodup nodup_codes_all)

section

variable {ctx : RuleContext} {rules : List Rule} (hmax : ctx.settings.maxDiagnostics = 0)

include hmax in
theorem mem_alone {r : Rule} {d : Diagnostic} : d ∈ alone ctx r ↔ d ∈ foundBy ctx [r] {} := by
  rw [alone, diagnostics_ofRules hmax, mem_arrange]

include hmax in
/-- Undisturbed rules find, one after the other, what they find alone. -/
theorem undisturbed_iff (hcodes : (rules.map Rule.code).Nodup) :
    Undisturbed ctx rules ↔ ∀ before r after, rules = before ++ r :: after →
      ∀ d, d ∈ foundBy ctx [r] (memoAfter ctx before {}) ↔ d ∈ alone ctx r := by
  have key (before : List Rule) (r : Rule) (after : List Rule) (h : rules = before ++ r :: after) :
      (((ofRules ctx [r]).run ((ofRules ctx before).run {}).2).1.diagnostics = alone ctx r) ↔
        ∀ d, d ∈ foundBy ctx [r] (memoAfter ctx before {}) ↔ d ∈ alone ctx r := by
    rw [diagnostics_ofRules hmax, memo_ofRules, alone, diagnostics_ofRules hmax,
      arrange_eq_arrange_iff hcodes]
    · simp only [mem_arrange]
    · intro d hd
      obtain ⟨f, rfl⟩ := exists_finding hd
      exact ⟨r, by simp [h], f, rfl⟩
  constructor
  · intro h before r after heq
    exact (key before r after heq).1 (h before r after heq)
  · intro h before r after heq
    exact (key before r after heq).2 (h before r after heq)

/-- A rule is told by the code of its diagnostics. -/
theorem rule_eq_of_mem {r s : Rule} {d : Diagnostic} {memo memo' : Memo}
    (hcodes : (rules.map Rule.code).Nodup) (hr : r ∈ rules) (hs : s ∈ rules)
    (hdr : d ∈ foundBy ctx [r] memo) (hds : d ∈ foundBy ctx [s] memo') : r = s := by
  obtain ⟨f, rfl⟩ := exists_finding hdr
  obtain ⟨g, hg⟩ := exists_finding hds
  exact List.inj_on_of_nodup_map hcodes hr hs (congrArg Diagnostic.code hg)

include hmax in
/-- A report is the union of what its rules report alone exactly if they do not disturb each
other. -/
theorem diagnostics_eq_union_iff (hcodes : (rules.map Rule.code).Nodup) :
    ((ofRules ctx rules).run {}).1.diagnostics = arrange (rules.flatMap (alone ctx)) ↔
      Undisturbed ctx rules := by
  have hnodup : rules.Nodup := List.Nodup.of_map _ hcodes
  rw [diagnostics_ofRules hmax, undisturbed_iff hmax hcodes,
    arrange_eq_arrange_iff hcodes fun _ => isOf_of_mem_foundBy]
  constructor
  · intro h before r after heq d
    have hr : r ∈ rules := by simp [heq]
    constructor
    · intro hd
      obtain ⟨s, hs, hds⟩ := List.mem_flatMap.1 ((h d).1 (mem_foundBy_iff.2 ⟨_, _, _, heq, hd⟩))
      rwa [rule_eq_of_mem hcodes hr hs hd ((mem_alone hmax).1 hds)]
    · intro hd
      obtain ⟨before', s, after', heq', hds⟩ :=
        mem_foundBy_iff.1 ((h d).2 (List.mem_flatMap.2 ⟨r, hr, hd⟩))
      have hs : s ∈ rules := by simp [heq']
      obtain rfl := rule_eq_of_mem hcodes hr hs ((mem_alone hmax).1 hd) hds
      -- The rule stands at one place only, so the rules before it are the same.
      have hnot : r ∉ before ∧ r ∉ after := by
        rw [heq, List.nodup_middle, List.nodup_cons, List.mem_append, not_or] at hnodup
        exact hnodup.1
      obtain ⟨rfl, -, -⟩ :=
        (List.append_cons_inj_of_notMem hnot.1 hnot.2).1 (heq.symm.trans heq')
      exact hds
  · intro h d
    rw [mem_foundBy_iff, List.mem_flatMap]
    constructor
    · rintro ⟨before, r, after, heq, hd⟩
      exact ⟨r, by simp [heq], (h before r after heq d).1 hd⟩
    · rintro ⟨r, hr, hd⟩
      obtain ⟨before, after, heq⟩ := List.append_of_mem hr
      exact ⟨before, r, after, heq, (h before r after heq d).2 hd⟩

end

/-! ### Acyclic documents -/

section

variable {ctx : RuleContext} {rules : List Rule} (ha : ctx.analysis.table.Consistent)
  (hacyclic : ctx.analysis.IsAcyclic)
include ha hacyclic

theorem foundBy_eq_of_faithful {r : Rule} (hr : r ∈ Rule.all) {memo : Memo}
    (hmemo : ctx.analysis.Faithful memo) :
    foundBy ctx [r] memo = foundBy ctx [r] {} ∧
      ctx.analysis.Faithful (memoAfter ctx [r] memo) := by
  obtain ⟨outcome, -, hafter⟩ := Rule.steady_check ha hacyclic hr
  obtain ⟨memo', hmemo', hfaithful⟩ := hafter memo hmemo
  obtain ⟨empty', hempty', -⟩ := hafter {} (faithful_empty _)
  constructor
  · rw [foundBy_singleton, foundBy_singleton, hmemo', hempty']
  · rw [memoAfter_singleton, hmemo']
    split
    · exact hfaithful
    · exact hmemo

theorem faithful_memoAfter (hrules : ∀ r ∈ rules, r ∈ Rule.all) {memo : Memo}
    (hmemo : ctx.analysis.Faithful memo) : ctx.analysis.Faithful (memoAfter ctx rules memo) := by
  induction rules generalizing memo with
  | nil => exact hmemo
  | cons r rules ih =>
      rw [memoAfter_cons]
      refine ih (fun s hs => hrules s (List.mem_cons_of_mem _ hs)) ?_
      exact (foundBy_eq_of_faithful ha hacyclic (hrules r (List.mem_cons_self ..)) hmemo).2

/-- On an acyclic document rules do not disturb each other. -/
theorem undisturbed_of_isAcyclic (hmax : ctx.settings.maxDiagnostics = 0)
    (hrules : ∀ r ∈ rules, r ∈ Rule.all) : Undisturbed ctx rules := by
  rintro before r after rfl
  have hbefore : ∀ s ∈ before, s ∈ Rule.all := fun s hs => hrules s (by simp [hs])
  rw [alone, diagnostics_ofRules hmax, diagnostics_ofRules hmax, memo_ofRules]
  rw [(foundBy_eq_of_faithful ha hacyclic (hrules r (by simp))
    (faithful_memoAfter ha hacyclic hbefore (faithful_empty _))).1]

/-- On an acyclic document rules find together what they find alone. -/
theorem mem_foundBy_of_isAcyclic (hrules : ∀ r ∈ rules, r ∈ Rule.all) {d : Diagnostic} :
    d ∈ foundBy ctx rules {} ↔ ∃ r ∈ rules, d ∈ foundBy ctx [r] {} := by
  have key (before : List Rule) (r : Rule) (after : List Rule) (h : rules = before ++ r :: after) :
      foundBy ctx [r] (memoAfter ctx before {}) = foundBy ctx [r] {} := by
    have hbefore : ∀ s ∈ before, s ∈ Rule.all := fun s hs => hrules s (by simp [h, hs])
    exact (foundBy_eq_of_faithful ha hacyclic (hrules r (by simp [h]))
      (faithful_memoAfter ha hacyclic hbefore (faithful_empty _))).1
  rw [mem_foundBy_iff]
  constructor
  · rintro ⟨before, r, after, h, hd⟩
    rw [key before r after h] at hd
    exact ⟨r, by simp [h], hd⟩
  · rintro ⟨r, hr, hd⟩
    obtain ⟨before, after, h⟩ := List.append_of_mem hr
    refine ⟨before, r, after, h, ?_⟩
    rwa [key before r after h]

/-- On an acyclic document the order of the rules does not matter. -/
theorem diagnostics_perm (hmax : ctx.settings.maxDiagnostics = 0)
    (hrules : rules.Subperm Rule.all) {rules' : List Rule} (hperm : rules'.Perm rules) :
    ((ofRules ctx rules').run {}).1.diagnostics = ((ofRules ctx rules).run {}).1.diagnostics := by
  have hall : ∀ r ∈ rules, r ∈ Rule.all := fun r hr => hrules.subset hr
  have hall' : ∀ r ∈ rules', r ∈ Rule.all := fun r hr => hall r (hperm.subset hr)
  rw [diagnostics_ofRules hmax, diagnostics_ofRules hmax,
    arrange_eq_arrange_iff (nodup_codes (hperm.subperm.trans hrules)) fun _ => isOf_of_mem_foundBy]
  intro d
  rw [mem_foundBy_of_isAcyclic ha hacyclic hall, mem_foundBy_of_isAcyclic ha hacyclic hall']
  simp only [hperm.mem_iff]

end

end Report

/-! ### Leaving rules out -/

/-- The settings with some more rules left out, each given by its name or code. -/
def Settings.disable (s : Settings) (names : List String) : Settings :=
  { s with disabledRules := names ++ s.disabledRules }

theorem Settings.ruleEnabled_disable (s : Settings) (names : List String) (name code : String) :
    (s.disable names).ruleEnabled name code =
      (s.ruleEnabled name code && (!names.contains name && !names.contains code)) := by
  simp only [ruleEnabled, disable, List.contains_append]
  split
  · rfl
  · cases names.contains name <;> cases names.contains code <;> simp

namespace Report

variable {a : Analysis} {s : Settings} {rules : List Rule}

/-- A rule that is left out finds nothing, and the others find what they found before. -/
theorem mem_foundBy_disable {names : List String} {r : Rule} (hr : r ∈ Rule.all)
    {d : Diagnostic} :
    d ∈ foundBy ⟨a, s.disable names⟩ [r] {} ↔
      d ∈ foundBy ⟨a, s⟩ [r] {} ∧ (!names.contains d.rule && !names.contains d.code) = true := by
  have hcheck : r.check ⟨a, s.disable names⟩ = r.check ⟨a, s⟩ := Rule.check_congr hr a rfl
  have hfound : d ∈ foundBy ⟨a, s.disable names⟩ [r] {} ↔ d ∈ foundBy ⟨a, s⟩ [r] {} ∧
      (!names.contains r.name && !names.contains r.code) = true := by
    rw [foundBy_singleton, foundBy_singleton, hcheck, Settings.ruleEnabled_disable]
    cases s.ruleEnabled r.name r.code <;>
      cases (!names.contains r.name && !names.contains r.code) <;> simp
  rw [hfound]
  constructor
  · rintro ⟨hd, hnames⟩
    obtain ⟨f, rfl⟩ := exists_finding hd
    exact ⟨hd, hnames⟩
  · rintro ⟨hd, hnames⟩
    obtain ⟨f, rfl⟩ := exists_finding hd
    exact ⟨hd, hnames⟩

/-- On an acyclic document leaving rules out removes their own diagnostics and no others. -/
theorem diagnostics_disable (ha : a.table.Consistent) (hacyclic : a.IsAcyclic)
    (hmax : s.maxDiagnostics = 0) (hrules : rules.Subperm Rule.all) (names : List String) :
    ((ofRules ⟨a, s.disable names⟩ rules).run {}).1.diagnostics =
      ((ofRules ⟨a, s⟩ rules).run {}).1.diagnostics.filter fun d =>
        !names.contains d.rule && !names.contains d.code := by
  have hall : ∀ r ∈ rules, r ∈ Rule.all := fun r hr => hrules.subset hr
  have hmax' : (s.disable names).maxDiagnostics = 0 := hmax
  have hunion (t : Settings) (d : Diagnostic) :
      d ∈ foundBy ⟨a, t⟩ rules {} ↔ ∃ r ∈ rules, d ∈ foundBy ⟨a, t⟩ [r] {} :=
    mem_foundBy_of_isAcyclic ha hacyclic hall
  rw [diagnostics_ofRules hmax, diagnostics_ofRules hmax']
  refine eq_of_mem_iff (nodup_codes hrules) (nodup_arrange _) ((nodup_arrange _).filter _)
    (pairwise_arrange _) ((pairwise_arrange _).filter _) ?_ ?_
  · intro d hd
    exact isOf_of_mem_foundBy (mem_arrange.1 hd)
  · intro d
    rw [mem_arrange, List.mem_filter, mem_arrange, hunion, hunion]
    constructor
    · rintro ⟨r, hr, hd⟩
      obtain ⟨hd, hnames⟩ := (mem_foundBy_disable (hall r hr)).1 hd
      exact ⟨⟨r, hr, hd⟩, hnames⟩
    · rintro ⟨⟨r, hr, hd⟩, hnames⟩
      exact ⟨r, hr, (mem_foundBy_disable (hall r hr)).2 ⟨hd, hnames⟩⟩

/-! ### Independence -/

/-- When rules are independent of each other. Some rules, in any order, report the union of what
they report alone exactly if they do not disturb each other. This holds on every acyclic document,
and there neither the order of the rules matters nor which others are left out. -/
theorem independent_iff_undisturbed (text : List Char) (uri : Option String) (catalog : Catalog)
    (settings : Settings) (hmax : settings.maxDiagnostics = 0) (rules : List Rule)
    (hrules : rules.Subperm Rule.all) :
    let a := Analysis.ofText text uri catalog
    let report (s : Settings) (rs : List Rule) := ((ofRules ⟨a, s⟩ rs).run {}).1.diagnostics
    (report settings rules = arrange (rules.flatMap (alone ⟨a, settings⟩)) ↔
      Undisturbed ⟨a, settings⟩ rules) ∧
    (a.IsAcyclic →
      Undisturbed ⟨a, settings⟩ rules ∧
      (∀ rules', rules'.Perm rules → report settings rules' = report settings rules) ∧
      ∀ names, report (settings.disable names) rules = (report settings rules).filter fun d =>
        !names.contains d.rule && !names.contains d.code) := by
  intro a report
  have ha : a.table.Consistent :=
    DeclarationTable.consistent_collect (Document.isNumbered_ofText text uri) _
  refine ⟨diagnostics_eq_union_iff hmax (nodup_codes hrules), ?_⟩
  intro hacyclic
  refine ⟨?_, ?_, ?_⟩
  · exact undisturbed_of_isAcyclic ha hacyclic hmax fun r hr => hrules.subset hr
  · intro rules' hperm
    exact diagnostics_perm ha hacyclic hmax hrules hperm
  · intro names
    exact diagnostics_disable ha hacyclic hmax hrules names

/-- A catalog in which arrays have no methods. -/
def arrayCatalog : Catalog :=
  { types := [⟨.str "Array", [], "", []⟩] }

/-- All rules, from the last to the first, on a document whose variables build on each other. -/
theorem independent_chain :
    let a := Analysis.ofText "var x = 1\nvar y = [x]\ny.foo()\n".toList none arrayCatalog
    ((ofRules ⟨a, {}⟩ Rule.all.reverse).run {}).1.diagnostics =
      arrange (Rule.all.reverse.flatMap (alone ⟨a, {}⟩)) := by
  have h := independent_iff_undisturbed "var x = 1\nvar y = [x]\ny.foo()\n".toList none arrayCatalog
    {} rfl Rule.all.reverse (List.reverse_perm _).subperm
  exact h.1.2 (h.2 (by decide +kernel)).1

/-- Two functions that call each other, and two variables with their types. -/
def crossedCalls : List Char :=
  "def f():\nreturn [g()]\nend\ndef g():\nreturn [f()]\nend\n".toList ++
    "var x = f()\nvar y = g()\nx.m()\ny = 5\n".toList

/-- Where functions call each other, a rule may disturb another. The type of `y` is asked for first,
so that `f` is looked at while `g` is still open. -/
theorem disturbed_crossed :
    let a := Analysis.ofText crossedCalls none arrayCatalog
    ((ofRules ⟨a, {}⟩ [.assignmentTypeMismatch, .unknownMember]).run {}).1.diagnostics ≠
      arrange ([Rule.assignmentTypeMismatch, .unknownMember].flatMap (alone ⟨a, {}⟩)) := by
  intro a
  rw [Ne, diagnostics_eq_union_iff rfl (by decide)]
  intro h
  exact absurd (h [.assignmentTypeMismatch] .unknownMember [] rfl) (by decide +kernel)

end Report

end Polyloft
