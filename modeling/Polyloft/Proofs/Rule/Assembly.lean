import Polyloft.Proofs.Rule.Report

/-!
# Polyloft.Proofs.Rule.Assembly

What a report is made of, whatever its rules are. Rules that are enabled take turns: each runs on
the memo that the rules before it left, also behind a rule that failed, and either gives all of its
findings or fails and gives none (`turns`). A report lists the diagnostics of the turns, strictly in
order, and names the rules that failed (`exists_assembled`).

Strictness is what makes the report a function of the set of diagnostics: the order looks at place,
code and message only, but rules have different codes, so no two diagnostics share a place in it.
-/

namespace Polyloft

/-- The diagnostic has an earlier place in the order than another one. -/
def Diagnostic.Before (a b : Diagnostic) : Prop :=
  compareKey a b = .lt

theorem Diagnostic.before_of_le {a b : Diagnostic} (hle : le a b = true)
    (hne : compareKey a b ≠ .eq) : a.Before b := by
  unfold Before
  unfold le at hle
  cases h : compareKey a b with
  | lt => rfl
  | eq => exact absurd h hne
  | gt => simp [h] at hle

/-- The context without a limit on the number of diagnostics. -/
def RuleContext.unlimited (ctx : RuleContext) : RuleContext :=
  { ctx with settings := { ctx.settings with maxDiagnostics := 0 } }

namespace Report

/-! ### Turns -/

/-- A rule that has run, and what it gave: findings, or the fault that it met. -/
structure Turn where
  rule : Rule
  outcome : Except Fault (List Finding)

/-- What the turn adds to a report. -/
def Turn.diagnostics (t : Turn) : List Diagnostic :=
  match t.outcome with
  | .ok findings => findings.map t.rule.diagnostic
  | .error _ => []

/-- What the turn adds to the warnings. -/
def Turn.warning? (t : Turn) : Option Warning :=
  match t.outcome with
  | .ok _ => none
  | .error _ => some (.ruleFailed t.rule.name)

/-- The turns of the enabled rules, each on the memo that the one before left. -/
def turns (ctx : RuleContext) : List Rule → Memo → List Turn
  | [], _ => []
  | r :: rs, memo =>
    if ctx.settings.ruleEnabled r.name r.code then
      let ran := (r.check ctx).after memo
      ⟨r, ran.1⟩ :: turns ctx rs ran.2
    else turns ctx rs memo

variable {ctx : RuleContext} {rules : List Rule} {memo : Memo} {d : Diagnostic}

theorem Turn.mem_diagnostics_iff {t : Turn} :
    d ∈ t.diagnostics ↔ ∃ findings, t.outcome = .ok findings ∧
      ∃ f ∈ findings, d = t.rule.diagnostic f := by
  unfold diagnostics
  cases h : t.outcome with
  | ok findings => simp only [List.mem_map, Except.ok.injEq, exists_eq_left', eq_comm]
  | error => simp

/-- The enabled rules take turns in their order, whatever memo each of them finds. -/
theorem map_rule_turns (ctx : RuleContext) (rules : List Rule) (memo : Memo) :
    (turns ctx rules memo).map Turn.rule =
      rules.filter fun r => ctx.settings.ruleEnabled r.name r.code := by
  induction rules generalizing memo with
  | nil => rfl
  | cons r rules ih =>
      rw [turns, List.filter_cons]
      split
      · rw [List.map_cons, ih]
      · exact ih memo

theorem sublist_turns (ctx : RuleContext) (rules : List Rule) (memo : Memo) :
    ((turns ctx rules memo).map Turn.rule).Sublist rules := by
  rw [map_rule_turns]
  exact List.filter_sublist

theorem mem_map_rule_turns_iff {r : Rule} :
    r ∈ (turns ctx rules memo).map Turn.rule ↔
      r ∈ rules ∧ ctx.settings.ruleEnabled r.name r.code = true := by
  rw [map_rule_turns, List.mem_filter]

/-- Running the rules gives what their turns give. -/
theorem run_collect (ctx : RuleContext) (rules : List Rule) (memo : Memo) :
    ((collect ctx rules).run memo).1 =
      ((turns ctx rules memo).flatMap Turn.diagnostics,
        (turns ctx rules memo).filterMap Turn.warning?) := by
  induction rules generalizing memo with
  | nil => rfl
  | cons r rules ih =>
      rw [collect, turns]
      split
      · simp only [Rule.run, ExceptT.run_bind, StateT.run_bind, Infer.after]
        -- Either way the other rules run on the memo that the rule leaves.
        rcases (ExceptT.run (r.check ctx)).run memo with ⟨_ | findings, memo'⟩
        · show (_, _) = (_, _)
          rw [ih]
          rfl
        · show (_, _) = (_, _)
          rw [ih]
          rfl
      · exact ih memo

/-! ### Strict order -/

/-- A turn is told by the code of its diagnostics. -/
theorem turn_eq_of_code (hcodes : (rules.map Rule.code).Nodup) {t u : Turn}
    (ht : t ∈ turns ctx rules memo) (hu : u ∈ turns ctx rules memo)
    (hcode : t.rule.code = u.rule.code) : t = u := by
  have hturns : ((turns ctx rules memo).map fun t => t.rule.code).Nodup := by
    have hsub := (sublist_turns ctx rules memo).map Rule.code
    rw [List.map_map] at hsub
    exact hsub.nodup hcodes
  exact List.inj_on_of_nodup_map hturns ht hu hcode

theorem isOf_of_mem_turns {t : Turn} (ht : t ∈ turns ctx rules memo) (hd : d ∈ t.diagnostics) :
    d.IsOf rules := by
  obtain ⟨findings, -, f, -, rfl⟩ := Turn.mem_diagnostics_iff.1 hd
  exact ⟨t.rule, (sublist_turns ctx rules memo).subset (List.mem_map_of_mem ht), f, rfl⟩

theorem pairwise_before_arrange (hcodes : (rules.map Rule.code).Nodup) {ds : List Diagnostic}
    (hof : ∀ d ∈ ds, d.IsOf rules) : (arrange ds).Pairwise Diagnostic.Before := by
  refine ((pairwise_arrange ds).and (nodup_arrange ds)).imp_of_mem ?_
  rintro a b ha hb ⟨hle, hne⟩
  refine Diagnostic.before_of_le hle ?_
  intro heq
  have hge : Diagnostic.le b a = true := by
    rw [Diagnostic.le, Std.OrientedCmp.eq_comm.1 heq]
    rfl
  exact hne (Diagnostic.eq_of_le_of_le hcodes (hof a (mem_arrange.1 ha)) (hof b (mem_arrange.1 hb))
    hle hge)

/-- However the set of diagnostics is listed, sorting the list gives the report. -/
theorem mergeSort_eq_arrange (hcodes : (rules.map Rule.code).Nodup) {ds found : List Diagnostic}
    (hof : ∀ d ∈ ds, d.IsOf rules) (hnodup : found.Nodup) (hmem : ∀ d, d ∈ found ↔ d ∈ ds) :
    found.mergeSort Diagnostic.le = arrange ds := by
  have hperm : (found.mergeSort Diagnostic.le).Perm found := List.mergeSort_perm _ _
  refine eq_of_mem_iff hcodes (hperm.nodup_iff.2 hnodup) (nodup_arrange ds) ?_
    (pairwise_arrange ds) ?_ ?_
  · refine List.pairwise_mergeSort ?_ Diagnostic.le_total _
    intro a b c hab hbc
    exact Diagnostic.le_trans hab hbc
  · intro d hd
    exact hof d ((hmem d).1 (hperm.mem_iff.1 hd))
  · intro d
    rw [hperm.mem_iff, hmem, mem_arrange]

/-! ### The report -/

/-- The report of some rules, run on a memo, is made of the given diagnostics. -/
structure Assembled (ctx : RuleContext) (rules : List Rule) (memo : Memo)
    (all : List Diagnostic) : Prop where
  /-- Rules take turns in their order, each at most once. -/
  inOrder : ((turns ctx rules memo).map Turn.rule).Sublist rules
  /-- Every rule takes one but those left out by name or code, and indentation where it is not
  checked. -/
  enabled : ∀ r ∈ rules, r ∈ (turns ctx rules memo).map Turn.rule ↔
    (r.name = "indentation" → ctx.settings.checkIndentation = true) ∧
      r.name ∉ ctx.settings.disabledRules ∧ r.code ∉ ctx.settings.disabledRules
  strict : all.Pairwise Diagnostic.Before
  /-- They are the findings of the enabled rules that did not fail. -/
  mem_iff : ∀ d, d ∈ all ↔ ∃ t ∈ turns ctx rules memo, ∃ findings, t.outcome = .ok findings ∧
    ∃ f ∈ findings, d = t.rule.diagnostic f
  /-- Nothing comes from a rule that is left out by its name or code. -/
  disabled : ∀ r ∈ rules, r.name ∈ ctx.settings.disabledRules ∨
    r.code ∈ ctx.settings.disabledRules → ∀ d ∈ all, d.code ≠ r.code
  /-- Nothing comes from a rule that failed. -/
  failed : ∀ t ∈ turns ctx rules memo, ∀ fault, t.outcome = .error fault →
    ∀ d ∈ all, d.code ≠ t.rule.code
  /-- The order in which the set of them is listed before it is sorted does not matter. -/
  listed : ∀ found : List Diagnostic, found.Nodup → (∀ d, d ∈ found ↔ d ∈ all) →
    found.mergeSort Diagnostic.le = all
  /-- A limit keeps the first of them. -/
  kept : ((ofRules ctx rules).run memo).1.diagnostics =
    if ctx.settings.maxDiagnostics = 0 then all else all.take ctx.settings.maxDiagnostics.toNat
  /-- Without a limit, the report lists them, if the rules do not look at the limit. -/
  unlimited : (∀ r ∈ rules, r.check ctx.unlimited = r.check ctx) →
    ((ofRules ctx.unlimited rules).run memo).1.diagnostics = all
  /-- The warnings name the rules that failed. -/
  warned : ((ofRules ctx rules).run memo).1.warnings =
    (turns ctx rules memo).filterMap Turn.warning?

theorem diagnostics_eq_cap (ctx : RuleContext) (rules : List Rule) (memo : Memo) :
    ((ofRules ctx rules).run memo).1.diagnostics =
      cap ctx.settings.maxDiagnostics
        (arrange ((turns ctx rules memo).flatMap Turn.diagnostics)) := by
  show cap ctx.settings.maxDiagnostics (arrange ((collect ctx rules).run memo).1.1) = _
  rw [run_collect]

theorem warnings_eq_filterMap (ctx : RuleContext) (rules : List Rule) (memo : Memo) :
    ((ofRules ctx rules).run memo).1.warnings =
      (turns ctx rules memo).filterMap Turn.warning? :=
  congrArg Prod.snd (run_collect ctx rules memo)

/-- Rules that do not look at the limit take the same turns without it. -/
theorem turns_unlimited (hblind : ∀ r ∈ rules, r.check ctx.unlimited = r.check ctx) (memo : Memo) :
    turns ctx.unlimited rules memo = turns ctx rules memo := by
  induction rules generalizing memo with
  | nil => rfl
  | cons r rules ih =>
      obtain ⟨hr, hrules⟩ := List.forall_mem_cons.1 hblind
      have henabled : ctx.unlimited.settings.ruleEnabled r.name r.code =
          ctx.settings.ruleEnabled r.name r.code := rfl
      rw [turns, turns, henabled, hr]
      split
      · exact congrArg _ (ih hrules _)
      · exact ih hrules memo

/-- How a report is assembled, for rules with different codes that may fail anywhere: it lists,
strictly in order and up to the limit, exactly the findings of the enabled rules that did not fail,
each rule run on the memo that the rules before it left. -/
theorem exists_assembled (ctx : RuleContext) (hvalid : ctx.settings.IsValid) (rules : List Rule)
    (hcodes : (rules.map Rule.code).Nodup) (memo : Memo) :
    ∃ all, Assembled ctx rules memo all := by
  have hof : ∀ d ∈ (turns ctx rules memo).flatMap Turn.diagnostics, d.IsOf rules := by
    intro d hd
    obtain ⟨t, ht, hd⟩ := List.mem_flatMap.1 hd
    exact isOf_of_mem_turns ht hd
  -- A diagnostic with the code of a rule comes from the turn of that rule.
  have hturn : ∀ d ∈ arrange ((turns ctx rules memo).flatMap Turn.diagnostics),
      ∃ t ∈ turns ctx rules memo, ∃ findings, t.outcome = .ok findings ∧ d.code = t.rule.code := by
    intro d hd
    obtain ⟨t, ht, hd⟩ := List.mem_flatMap.1 (mem_arrange.1 hd)
    obtain ⟨findings, houtcome, f, -, rfl⟩ := Turn.mem_diagnostics_iff.1 hd
    exact ⟨t, ht, findings, houtcome, rfl⟩
  refine ⟨arrange ((turns ctx rules memo).flatMap Turn.diagnostics), ?_⟩
  constructor
  case inOrder => exact sublist_turns ctx rules memo
  case enabled =>
    intro r hr
    rw [mem_map_rule_turns_iff, Settings.ruleEnabled_iff]
    exact and_iff_right hr
  case strict => exact pairwise_before_arrange hcodes hof
  case mem_iff =>
    intro d
    simp only [mem_arrange, List.mem_flatMap, Turn.mem_diagnostics_iff]
  case disabled =>
    intro r hr hdisabled d hd hcode
    obtain ⟨t, ht, -, -, hd⟩ := hturn d hd
    have hrule : t.rule = r := List.inj_on_of_nodup_map hcodes
      ((sublist_turns ctx rules memo).subset (List.mem_map_of_mem ht)) hr (hd.symm.trans hcode)
    have henabled := (mem_map_rule_turns_iff.1 (List.mem_map_of_mem ht)).2
    rw [hrule] at henabled
    obtain ⟨-, hname, hcode⟩ := Settings.ruleEnabled_iff.1 henabled
    exact hdisabled.elim hname hcode
  case failed =>
    intro t ht fault hfault d hd hcode
    obtain ⟨u, hu, findings, hfindings, hd⟩ := hturn d hd
    obtain rfl := turn_eq_of_code hcodes hu ht (hd.symm.trans hcode)
    rw [hfault] at hfindings
    exact absurd hfindings (by simp)
  case listed =>
    intro found hnodup hmem
    exact mergeSort_eq_arrange hcodes hof hnodup fun d => (hmem d).trans mem_arrange
  case kept =>
    have hlimit := hvalid.2
    rw [diagnostics_eq_cap, cap]
    split
    · rfl
    · rw [if_pos (by omega)]
  case unlimited =>
    intro hblind
    rw [diagnostics_eq_cap, turns_unlimited hblind]
    rfl
  case warned => exact warnings_eq_filterMap ctx rules memo

/-- A rule that fails once it has found something. -/
def brokenRule : Rule where
  name := "broken"
  code := "PF-E999"
  severity := .error
  description := ""
  check ctx := do
    let _ ← Rule.wordOperator.check ctx
    throw (.other "broken")

/-- Of four rules one is left out by its code and one fails. The other two find one thing each, the
later rule on the earlier line, and the limit keeps that. -/
theorem exists_assembled_broken :
    let a := Analysis.ofText "var x = 1..2\nvar y = \"a#b\"\nvar z = x and not y".toList none {}
    let ctx : RuleContext := ⟨a, { disabledRules := ["PF-E010"], maxDiagnostics := 1 }⟩
    let rules := [Rule.missedInterpolation, brokenRule, .wordOperator, .twoDotRange]
    let ranged : Diagnostic := ⟨⟨0, 9, 11⟩,
      "Use '...' for ranges instead of '..'", .error, "PF-E011", "two-dot-range"⟩
    let missed : Diagnostic := ⟨⟨1, 10, 11⟩,
      "Possible missed interpolation: use '#\x7bexpression\x7d'", .hint, "PF-H202",
        "missed-interpolation"⟩
    (ctx.settings.IsValid ∧ (rules.map Rule.code).Nodup) ∧
      Assembled ctx rules {} [ranged, missed] ∧
      ((ofRules ctx rules).run {}).1.diagnostics = [ranged] ∧
      ((ofRules ctx rules).run {}).1.warnings = [.ruleFailed "broken"] := by
  intro a ctx rules ranged missed
  have hvalid : ctx.settings.IsValid := by decide
  have hcodes : (rules.map Rule.code).Nodup := by decide
  have hfound : (turns ctx rules {}).flatMap Turn.diagnostics = [missed, ranged] := by
    decide +kernel
  obtain ⟨all, hall⟩ := exists_assembled ctx hvalid rules hcodes {}
  -- Sorting does not compute, so the order of what was found is told by `listed`.
  have hmem : ∀ d, d ∈ [ranged, missed] ↔ d ∈ all := by
    intro d
    rw [hall.mem_iff]
    simp only [← Turn.mem_diagnostics_iff, ← List.mem_flatMap, hfound]
    simp [or_comm]
  obtain rfl : [ranged, missed] = all := by
    rw [← hall.listed [ranged, missed] (by decide) hmem, List.mergeSort_of_pairwise (by decide)]
  refine ⟨⟨hvalid, hcodes⟩, hall, hall.kept, ?_⟩
  rw [hall.warned]
  decide +kernel

end Report

end Polyloft
