import Polyloft.Proofs.BlankLine.Report
import Polyloft.Proofs.Declaration.Visible

/-!
# Polyloft.Proofs.Rule.Reassignment

What the rule about reassigned constants reports, in every document: the assignments whose name
means a constant of an earlier line, each once, and nothing else. Names that no constant bears
anywhere are passed over before they are looked up, and no report is lost by that.

## Proof shape

`Reassigns` says what an assignment to a constant is, in terms of the scope tree and of what is
declared. A line is one exactly if the rule finds the name and the constant on it
(`reassigned?_eq_some_iff`); the rest follows from where the name stands.
-/

namespace Polyloft

open Infer

/-! ### The constant that a name means -/

theorem Declaration.isVariable_of_isConstant {d : Declaration} (h : d.isConstant = true) :
    d.isVariable = true := by
  rw [isConstant] at h
  rw [isVariable, kind]
  cases hform : d.form <;> rw [hform] at h <;> first | rfl | cases h

namespace DeclarationTable

variable {table : DeclarationTable} {tree : ScopeTree} {name : String} {line : Int} {frame : Nat}
variable {d : Declaration}

theorem eligible_eq_nil_iff : table.eligible name line frame = [] ↔
    ∀ e ∈ table.declarations, e.frame = frame → e.name = name →
      e.isVariable = true ∧ line < e.line := by
  rw [List.eq_nil_iff_forall_not_mem]
  refine forall_congr' fun e => ?_
  rw [mem_eligible]
  simp only [not_and, Classical.not_imp, Int.not_le]

theorem filter_isVariable_eligible :
    (table.eligible name line frame).filter Declaration.isVariable =
      table.declarations.filter fun e =>
        e.frame == frame && e.name == name && e.isVariable && decide ((e.line : Int) ≤ line) := by
  rw [eligible, inFrame, List.filter_filter, List.filter_filter]
  refine List.filter_congr fun e _ => ?_
  rw [Declaration.reaches]
  cases e.isVariable
  · simp
  · simp only [Bool.and_true, Bool.true_and, ← decide_not, Int.not_lt]
    rw [Bool.and_comm _ (e.frame == frame), Bool.and_assoc]

/-- A constant is meant if it is the last variable of its name in the innermost frame that has a
declaration of the name. -/
theorem visible?_eq_constant_iff (hconstant : d.isConstant = true) :
    table.visible? name line tree = some d ↔
      ∃ inner f outer, tree.around line = inner ++ f :: outer ∧
        (∀ g ∈ inner, table.eligible name line g.id = []) ∧
          ((table.eligible name line f.id).filter Declaration.isVariable).getLast? = some d := by
  have hchosen (f : Frame) : chosen name line (table.inFrame f.id) = some d ↔
      ((table.eligible name line f.id).filter Declaration.isVariable).getLast? = some d := by
    constructor
    · intro h
      have hmem : d ∈ (table.eligible name line f.id).filter Declaration.isVariable :=
        List.mem_filter.2 ⟨mem_eligible_of_chosen h, Declaration.isVariable_of_isConstant hconstant⟩
      rw [chosen_inFrame, List.getLast?_eq_some_getLast (List.ne_nil_of_mem hmem),
        Option.some_or] at h
      rwa [List.getLast?_eq_some_getLast (List.ne_nil_of_mem hmem)]
    · intro h
      rw [chosen_inFrame, h, Option.some_or]
  rw [visible?_eq_some_iff]
  simp only [hchosen]
  refine exists_congr fun inner => exists_congr fun f => exists_congr fun outer => ?_
  rw [and_comm (a := _ = some d)]

end DeclarationTable

/-! ### Assignments to constants -/

namespace Rule

variable {a : Analysis} {line : Line} {name : Token} {d : Declaration}

/-- The line assigns to the name, and the name means a constant that is declared on an earlier
line. -/
structure Reassigns (a : Analysis) (line : Line) (name : Token) (d : Declaration) : Prop where
  assigns : ∃ op rest, line.codeTokens = name :: op :: rest ∧ name.kind = .identifier ∧
    op.kind = .operator ∧ op.text ∈ ["=", "+=", "-=", "*=", "/=", "%=", "++", "--"]
  isConstant : d.isConstant = true
  earlier : d.line < line.index
  /-- In a frame around the line the constant is the last variable of its name up to there, and the
  frames inside of that one declare the name, if at all, as a variable behind the line. -/
  meant : ∃ inner f outer, a.tree.around line.index = inner ++ f :: outer ∧
    (∀ g ∈ inner, ∀ e ∈ a.table.declarations, e.frame = g.id → e.name = name.text →
      e.isVariable = true ∧ line.index < e.line) ∧
    (a.table.declarations.filter fun e => e.frame == f.id && e.name == name.text &&
      e.isVariable && decide (e.line ≤ line.index)).getLast? = some d

theorem assignment?_eq_some_iff {tokens rest : List Token} {op : Token} :
    assignment? tokens = some (name, op, rest) ↔
      tokens = name :: op :: rest ∧ name.kind = .identifier ∧ op.kind = .operator ∧
        op.text ∈ assignmentOperators := by
  match tokens with
  | [] => simp [assignment?]
  | [_] => simp [assignment?]
  | n :: o :: r =>
    rw [assignment?, Option.ite_none_right_eq_some]
    simp only [Bool.and_eq_true, beq_iff_eq, List.contains_iff_mem, Option.some.injEq,
      Prod.mk.injEq, List.cons.injEq]
    constructor
    · rintro ⟨⟨⟨hn, ho⟩, hop⟩, rfl, rfl, rfl⟩
      exact ⟨⟨rfl, rfl, rfl⟩, hn, ho, hop⟩
    · rintro ⟨⟨rfl, rfl, rfl⟩, hn, ho, hop⟩
      exact ⟨⟨⟨hn, ho⟩, hop⟩, rfl, rfl, rfl⟩

/-- The rule finds the assignments to constants. -/
theorem reassigned?_eq_some_iff :
    reassigned? a line = some (name, d) ↔ Reassigns a line name d := by
  have hfound : reassigned? a line = some (name, d) ↔
      (∃ op rest, assignment? line.codeTokens = some (name, op, rest)) ∧
        d.isConstant = true ∧ d.line < line.index ∧
          a.table.visible? name.text line.index a.tree = some d := by
    rw [reassigned?]
    constructor
    · intro h
      obtain ⟨⟨name', op, rest⟩, hassign, h⟩ := Option.bind_eq_some_iff.1 h
      obtain ⟨e, he, hpair⟩ := Option.map_eq_some_iff.1 h
      obtain ⟨rfl, rfl⟩ := Prod.mk.inj hpair
      obtain ⟨hvisible, hcond⟩ := Option.filter_eq_some_iff.1 he
      rw [Bool.and_eq_true, decide_eq_true_eq] at hcond
      exact ⟨⟨op, rest, hassign⟩, hcond.1, hcond.2, hvisible⟩
    · rintro ⟨⟨op, rest, hassign⟩, hconstant, hearlier, hvisible⟩
      rw [hassign, Option.bind_some]
      dsimp only
      rw [show a.visible? name.text line.index = some d from hvisible, Option.filter_some,
        hconstant, decide_eq_true hearlier]
      rfl
  rw [hfound]
  constructor
  · rintro ⟨⟨op, rest, hassign⟩, hconstant, hearlier, hvisible⟩
    refine ⟨⟨op, rest, assignment?_eq_some_iff.1 hassign⟩, hconstant, hearlier, ?_⟩
    rw [DeclarationTable.visible?_eq_constant_iff hconstant] at hvisible
    simpa only [DeclarationTable.eligible_eq_nil_iff, DeclarationTable.filter_isVariable_eligible,
      Int.ofNat_le, Int.ofNat_lt] using hvisible
  · rintro ⟨⟨op, rest, hassign⟩, hconstant, hearlier, hmeant⟩
    refine ⟨⟨op, rest, assignment?_eq_some_iff.2 hassign⟩, hconstant, hearlier, ?_⟩
    rw [DeclarationTable.visible?_eq_constant_iff hconstant]
    simpa only [DeclarationTable.eligible_eq_nil_iff, DeclarationTable.filter_isVariable_eligible,
      Int.ofNat_le, Int.ofNat_lt] using hmeant

/-! ### Reports -/

/-- What is reported is what there is to report: about each assignment to a constant once. -/
structure ReassignmentsReported (a : Analysis) (found : List Diagnostic) : Prop where
  /-- No two reports are about one line. -/
  once : (found.map fun f => f.range.line).Nodup
  onLines : ∀ f ∈ found, ∃ line ∈ a.document.lines, f.range.line = line.index
  exact : ∀ line ∈ a.document.lines, ∀ f : Diagnostic,
    (f ∈ found ∧ f.range.line = line.index) ↔
      ∃ name d, Reassigns a line name d ∧
        f = ⟨name.range, "Cannot reassign " ++
          (if d.form == .variable .const then "const" else "final") ++ " variable '" ++
          name.text ++ "' (declared on line " ++ toString (d.line + 1) ++ ")",
          .error, "PF-E005", "const-reassignment"⟩
  /-- The name stands in one of the two tables that are asked first. -/
  inTables : ∀ line name d, Reassigns a line name d →
    (∃ e ∈ a.table.firstWith .const, e.name = name.text) ∨
      ∃ e ∈ a.table.firstWith .final, e.name = name.text

/-- What is read off the items of a list, but for some of them, is read off in the same order. -/
theorem sublist_map_filterMap {α β γ : Type} {f : α → Option β} {g : β → γ} {k : α → γ}
    {xs : List α} (h : ∀ x ∈ xs, ∀ y, f x = some y → g y = k x) :
    ((xs.filterMap f).map g).Sublist (xs.map k) := by
  induction xs with
  | nil => exact .slnil
  | cons x xs ih =>
      rw [List.forall_mem_cons] at h
      cases hx : f x with
      | none =>
          rw [List.filterMap_cons_none hx]
          exact (ih h.2).cons (k x)
      | some y =>
          rw [List.filterMap_cons_some hx, List.map_cons, List.map_cons, h.1 y hx]
          exact (ih h.2).cons_cons (k x)

/-- What the rule reports. -/
def reassignments (a : Analysis) : List Diagnostic :=
  (a.document.lines.filterMap (reassigned? a)).map fun p =>
    constReassignment.diagnostic (reassignment p)

theorem after_constReassignment (ctx : RuleContext) (memo : Memo) :
    (constReassignment.run ctx).after memo = (.ok (reassignments ctx.analysis), memo) := by
  have hfindings : ctx.analysis.document.lines.filterMap (reassignmentIn ctx.analysis) =
      (ctx.analysis.document.lines.filterMap (reassigned? ctx.analysis)).map reassignment := by
    rw [List.map_filterMap]
    exact congrArg (List.filterMap · _) (funext (reassignmentIn_eq ctx.analysis))
  rw [show (constReassignment.run ctx).after memo =
    (.ok ((ctx.analysis.document.lines.filterMap (reassignmentIn ctx.analysis)).map
      constReassignment.diagnostic), memo) from rfl, hfindings, List.map_map]
  rfl

/-- A constant that is assigned to is in the table of constants. -/
theorem Reassigns.hasConstant (h : Reassigns a line name d) :
    a.table.hasConstant name.text = true := by
  obtain ⟨inner, f, outer, -, -, hlast⟩ := h.meant
  obtain ⟨hmem, hcond⟩ := List.mem_filter.1 (List.mem_of_getLast? hlast)
  simp only [Bool.and_eq_true, beq_iff_eq] at hcond
  exact DeclarationTable.hasConstant_iff.2 ⟨d, hmem, hcond.1.1.2, h.isConstant⟩

section

variable (ha : a.IsRead)
include ha

/-- A report is about the line of the assignment. -/
theorem range_line_of_reassigned? {p : Token × Declaration} (hline : line ∈ a.document.lines)
    (hp : reassigned? a line = some p) :
    (constReassignment.diagnostic (reassignment p)).range.line = line.index :=
  congrArg Int.ofNat (Report.line_of_reassigned? ha hline hp)

theorem nodup_lines_reassignments : ((reassignments a).map fun f => f.range.line).Nodup := by
  have hlines : (a.document.lines.map fun l => (l.index : Int)).Nodup := by
    have hindices : (a.document.lines.map Line.index).Nodup := ha.isNumbered ▸ List.nodup_range
    rw [show (fun l : Line => (l.index : Int)) = Int.ofNat ∘ Line.index from rfl, ← List.map_map]
    exact hindices.map fun _ _ => Int.ofNat.inj
  rw [reassignments, List.map_map]
  refine (sublist_map_filterMap fun line hline p hp => ?_).nodup hlines
  exact range_line_of_reassigned? ha hline hp

theorem mem_reassignments_iff (hline : line ∈ a.document.lines) {f : Diagnostic} :
    (f ∈ reassignments a ∧ f.range.line = line.index) ↔
      ∃ name d, Reassigns a line name d ∧
        f = constReassignment.diagnostic (reassignment (name, d)) := by
  constructor
  · rintro ⟨hf, hindex⟩
    obtain ⟨p, hp, rfl⟩ := List.mem_map.1 hf
    obtain ⟨line', hline', hp⟩ := List.mem_filterMap.1 hp
    rw [range_line_of_reassigned? ha hline' hp, Int.natCast_inj] at hindex
    obtain rfl := ha.isNumbered.eq_of_index hline' hline hindex
    exact ⟨p.1, p.2, reassigned?_eq_some_iff.1 hp, rfl⟩
  · rintro ⟨name, d, hreassigns, rfl⟩
    have hp := reassigned?_eq_some_iff.2 hreassigns
    exact ⟨List.mem_map.2 ⟨(name, d), List.mem_filterMap.2 ⟨line, hline, hp⟩, rfl⟩,
      range_line_of_reassigned? ha hline hp⟩

end

/-- Assignments to constants are reported exactly, in every document and whatever is remembered. -/
theorem reassignments_are_reported (text : List Char) (uri : Option String)
    (catalog : Catalog) (settings : Settings) (memo : Memo) :
    let a := Analysis.ofText text uri catalog
    ∃ found, (constReassignment.run ⟨a, settings⟩).after memo = (.ok found, memo) ∧
      ReassignmentsReported a found := by
  intro a
  have ha : a.IsRead := Analysis.isRead_ofText text uri catalog
  refine ⟨reassignments a, after_constReassignment ⟨a, settings⟩ memo, ?_⟩
  constructor
  case once => exact nodup_lines_reassignments ha
  case onLines =>
    intro f hf
    obtain ⟨p, hp, rfl⟩ := List.mem_map.1 hf
    obtain ⟨line, hline, hp⟩ := List.mem_filterMap.1 hp
    exact ⟨line, hline, range_line_of_reassigned? ha hline hp⟩
  case exact => exact fun line hline f => mem_reassignments_iff ha hline
  case inTables =>
    intro line name d h
    have htable := h.hasConstant
    rw [DeclarationTable.hasConstant, Bool.or_eq_true, List.any_eq_true, List.any_eq_true] at htable
    simpa only [beq_iff_eq] using htable

end Rule

end Polyloft
