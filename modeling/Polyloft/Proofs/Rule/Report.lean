import Mathlib.Data.List.Nodup
import Mathlib.Data.List.Perm.Subperm
import Polyloft.Proofs.Inference.Plain
import Polyloft.Rule.Report

/-!
# Polyloft.Proofs.Rule.Report

How a report is put together. Running rules one after the other gives what each of them finds on
the memo left by the rules before it (`mem_foundBy_iff`), and the report lists these diagnostics in
order, each once. Diagnostics are ordered by place, code and message; the code tells the rule, so
that two diagnostics of rules with different codes at the same place in the order are the same
(`eq_of_le_of_le`). A report is therefore determined by the set of its diagnostics
(`arrange_eq_arrange_iff`).
-/

namespace Polyloft

open Std

/-! ### The order of diagnostics -/

namespace Diagnostic

instance : TransCmp compareKey :=
  inferInstanceAs (TransCmp
    (compareLex (compareOn fun d : Diagnostic => d.range.line)
      (compareLex (compareOn fun d => d.range.start)
        (compareLex (compareOn fun d => d.range.stop)
          (compareLex (compareOn fun d => d.code) (compareOn fun d => d.message))))))

theorem le_trans {a b c : Diagnostic} (hab : le a b = true) (hbc : le b c = true) :
    le a c = true :=
  TransCmp.isLE_trans hab hbc

theorem le_total (a b : Diagnostic) : (le a b || le b a) = true := by
  by_cases h : le a b = true
  · simp [h]
  · have hlt : compareKey b a = .lt := OrientedCmp.lt_of_not_isLE h
    simp [le, hlt]

/-- Two diagnostics at the same place in the order agree in all that it looks at. -/
theorem key_eq_of_le_of_le {a b : Diagnostic} (hab : le a b = true) (hba : le b a = true) :
    a.range = b.range ∧ a.code = b.code ∧ a.message = b.message := by
  have heq : compareKey a b = .eq := OrientedCmp.isLE_antisymm hab hba
  simp only [compareKey, Ordering.then_eq_eq, Std.compare_eq_iff_eq] at heq
  obtain ⟨hline, hstart, hstop, hcode, hmessage⟩ := heq
  refine ⟨?_, hcode, hmessage⟩
  cases ha : a.range
  cases hb : b.range
  simp_all

/-- The diagnostic is a finding of one of the rules. -/
def IsOf (rules : List Rule) (d : Diagnostic) : Prop :=
  ∃ r ∈ rules, ∃ f, d = r.diagnostic f

theorem eq_of_le_of_le {rules : List Rule} (hcodes : (rules.map Rule.code).Nodup)
    {a b : Diagnostic} (ha : a.IsOf rules) (hb : b.IsOf rules) (hab : le a b = true)
    (hba : le b a = true) : a = b := by
  obtain ⟨r, hr, f, rfl⟩ := ha
  obtain ⟨s, hs, g, rfl⟩ := hb
  obtain ⟨hrange, hcode, hmessage⟩ := key_eq_of_le_of_le hab hba
  obtain rfl : r = s := List.inj_on_of_nodup_map hcodes hr hs hcode
  simp only [Rule.diagnostic] at hrange hmessage ⊢
  rw [hrange, hmessage]

end Diagnostic

namespace Report

/-! ### Arranging diagnostics -/

theorem mem_insertNew {found : List Diagnostic} {d e : Diagnostic} :
    e ∈ insertNew found d ↔ e ∈ found ∨ e = d := by
  unfold insertNew
  split
  · rename_i hd
    constructor
    · exact .inl
    · rintro (h | rfl)
      · exact h
      · exact hd
  · simp

theorem nodup_insertNew {found : List Diagnostic} (d : Diagnostic) (h : found.Nodup) :
    (insertNew found d).Nodup := by
  unfold insertNew
  split
  · exact h
  · rename_i hd
    refine List.nodup_append.2 ⟨h, List.nodup_singleton d, ?_⟩
    intro e he e' he' heq
    obtain rfl := List.mem_singleton.1 he'
    exact hd (heq ▸ he)

theorem mem_foldl_insertNew {ds found : List Diagnostic} {e : Diagnostic} :
    e ∈ ds.foldl insertNew found ↔ e ∈ found ∨ e ∈ ds := by
  induction ds generalizing found with
  | nil => simp
  | cons d ds ih =>
      rw [List.foldl_cons, ih, mem_insertNew, List.mem_cons, or_assoc]

theorem nodup_foldl_insertNew {ds found : List Diagnostic} (h : found.Nodup) :
    (ds.foldl insertNew found).Nodup := by
  induction ds generalizing found with
  | nil => exact h
  | cons d ds ih => exact ih (nodup_insertNew d h)

@[simp] theorem mem_arrange {ds : List Diagnostic} {d : Diagnostic} : d ∈ arrange ds ↔ d ∈ ds := by
  rw [arrange, List.mem_mergeSort, mem_foldl_insertNew]
  simp

theorem nodup_arrange (ds : List Diagnostic) : (arrange ds).Nodup :=
  (List.mergeSort_perm _ _).nodup_iff.2 (nodup_foldl_insertNew List.nodup_nil)

theorem pairwise_arrange (ds : List Diagnostic) :
    (arrange ds).Pairwise fun a b => Diagnostic.le a b = true := by
  refine List.pairwise_mergeSort ?_ Diagnostic.le_total _
  intro a b c hab hbc
  exact Diagnostic.le_trans hab hbc

/-- Lists of diagnostics in order and without repetition are equal if they have the same members,
where the rules they come from have different codes. -/
theorem eq_of_mem_iff {rules : List Rule} (hcodes : (rules.map Rule.code).Nodup)
    {ds es : List Diagnostic} (hds : ds.Nodup) (hes : es.Nodup)
    (hds' : ds.Pairwise fun a b => Diagnostic.le a b = true)
    (hes' : es.Pairwise fun a b => Diagnostic.le a b = true)
    (hof : ∀ d ∈ ds, d.IsOf rules) (hmem : ∀ d, d ∈ ds ↔ d ∈ es) : ds = es := by
  refine List.Perm.eq_of_pairwise ?_ hds' hes' ((List.perm_ext_iff_of_nodup hds hes).2 hmem)
  intro a b ha hb hab hba
  exact Diagnostic.eq_of_le_of_le hcodes (hof a ha) (hof b ((hmem b).2 hb)) hab hba

/-- Arranged diagnostics are determined by the set of them. -/
theorem arrange_eq_arrange_iff {rules : List Rule} (hcodes : (rules.map Rule.code).Nodup)
    {ds es : List Diagnostic} (hof : ∀ d ∈ ds, d.IsOf rules) :
    arrange ds = arrange es ↔ ∀ d, d ∈ ds ↔ d ∈ es := by
  constructor
  · intro h d
    rw [← mem_arrange, h, mem_arrange]
  · intro hmem
    refine eq_of_mem_iff hcodes (nodup_arrange ds) (nodup_arrange es) (pairwise_arrange ds)
      (pairwise_arrange es) ?_ ?_
    · intro d hd
      exact hof d (mem_arrange.1 hd)
    · intro d
      rw [mem_arrange, mem_arrange, hmem]

/-! ### Running rules one after the other -/

/-- What the rules find, run on a memo. -/
def foundBy (ctx : RuleContext) (rules : List Rule) (memo : Memo) : List Diagnostic :=
  ((collect ctx rules).run memo).1.1

/-- The memo that the rules leave. -/
def memoAfter (ctx : RuleContext) (rules : List Rule) (memo : Memo) : Memo :=
  ((collect ctx rules).run memo).2

variable {ctx : RuleContext} {r : Rule} {rules : List Rule} {memo : Memo} {d : Diagnostic}

@[simp] theorem foundBy_nil (memo : Memo) : foundBy ctx [] memo = [] := rfl

@[simp] theorem memoAfter_nil (memo : Memo) : memoAfter ctx [] memo = memo := rfl

/-- The first of some rules, and then the others on the memo that it leaves. -/
theorem run_collect_cons (ctx : RuleContext) (r : Rule) (rules : List Rule) (memo : Memo) :
    foundBy ctx (r :: rules) memo =
        foundBy ctx [r] memo ++ foundBy ctx rules (memoAfter ctx [r] memo) ∧
      memoAfter ctx (r :: rules) memo = memoAfter ctx rules (memoAfter ctx [r] memo) := by
  simp only [foundBy, memoAfter, collect]
  split
  · simp only [StateT.run_bind]
    -- A rule that fails finds nothing, but what it has remembered stays.
    rcases (ExceptT.run (r.run ctx)).run memo with ⟨_ | found, memo'⟩
    · exact ⟨rfl, rfl⟩
    · refine ⟨?_, rfl⟩
      show _ ++ _ = (_ ++ []) ++ _
      rw [List.append_nil]
      rfl
  · exact ⟨rfl, rfl⟩

theorem foundBy_cons (ctx : RuleContext) (r : Rule) (rules : List Rule) (memo : Memo) :
    foundBy ctx (r :: rules) memo =
      foundBy ctx [r] memo ++ foundBy ctx rules (memoAfter ctx [r] memo) :=
  (run_collect_cons ctx r rules memo).1

theorem memoAfter_cons (ctx : RuleContext) (r : Rule) (rules : List Rule) (memo : Memo) :
    memoAfter ctx (r :: rules) memo = memoAfter ctx rules (memoAfter ctx [r] memo) :=
  (run_collect_cons ctx r rules memo).2

/-- Each rule finds what it finds on the memo left by the rules before it. -/
theorem mem_foundBy_iff :
    d ∈ foundBy ctx rules memo ↔
      ∃ before r after, rules = before ++ r :: after ∧
        d ∈ foundBy ctx [r] (memoAfter ctx before memo) := by
  induction rules generalizing memo with
  | nil => simp
  | cons r rules ih =>
      rw [foundBy_cons, List.mem_append, ih]
      constructor
      · rintro (h | ⟨before, s, after, rfl, h⟩)
        · exact ⟨[], r, rules, rfl, h⟩
        · refine ⟨r :: before, s, after, rfl, ?_⟩
          rw [memoAfter_cons]
          exact h
      · rintro ⟨before, s, after, heq, h⟩
        cases before with
        | nil =>
            obtain ⟨rfl, rfl⟩ := List.cons.inj heq
            exact .inl h
        | cons b before =>
            obtain ⟨rfl, rfl⟩ := List.cons.inj heq
            rw [memoAfter_cons] at h
            exact .inr ⟨before, s, after, rfl, h⟩

/-- What a rule finds on a memo: its findings, if it is enabled and does not fail. -/
theorem foundBy_singleton (ctx : RuleContext) (r : Rule) (memo : Memo) :
    foundBy ctx [r] memo =
      if ctx.settings.ruleEnabled r.name r.code then
        match ((r.check ctx).after memo).1 with
        | .ok findings => findings.map r.diagnostic
        | .error _ => []
      else [] := by
  simp only [foundBy, collect]
  split
  · simp only [Rule.run, ExceptT.run_bind, StateT.run_bind, Infer.after]
    rcases (ExceptT.run (r.check ctx)).run memo with ⟨_ | findings, memo'⟩
    · rfl
    · show findings.map r.diagnostic ++ [] = _
      rw [List.append_nil]
  · rfl

/-- The memo that a rule leaves. -/
theorem memoAfter_singleton (ctx : RuleContext) (r : Rule) (memo : Memo) :
    memoAfter ctx [r] memo =
      if ctx.settings.ruleEnabled r.name r.code then ((r.check ctx).after memo).2 else memo := by
  simp only [memoAfter, collect]
  split
  · simp only [Rule.run, ExceptT.run_bind, StateT.run_bind, Infer.after]
    rcases (ExceptT.run (r.check ctx)).run memo with ⟨_ | findings, memo'⟩
    · rfl
    · rfl
  · rfl

theorem exists_finding (h : d ∈ foundBy ctx [r] memo) : ∃ f, d = r.diagnostic f := by
  rw [foundBy_singleton] at h
  split at h
  · split at h
    · obtain ⟨f, -, rfl⟩ := List.mem_map.1 h
      exact ⟨f, rfl⟩
    · simp at h
  · simp at h

/-- Every diagnostic of a report is a finding of one of its rules. -/
theorem isOf_of_mem_foundBy (h : d ∈ foundBy ctx rules memo) : d.IsOf rules := by
  obtain ⟨before, r, after, rfl, hr⟩ := mem_foundBy_iff.1 h
  obtain ⟨f, rfl⟩ := exists_finding hr
  exact ⟨r, by simp, f, rfl⟩

/-- A report without limit is what the rules find, arranged. -/
theorem diagnostics_ofRules (hmax : ctx.settings.maxDiagnostics = 0) (rules : List Rule)
    (memo : Memo) :
    ((ofRules ctx rules).run memo).1.diagnostics = arrange (foundBy ctx rules memo) := by
  simp only [ofRules, foundBy, StateT.run_bind]
  show cap ctx.settings.maxDiagnostics _ = _
  rw [hmax, cap, if_pos rfl]

end Report

end Polyloft
