import Polyloft.Proofs.Rule.Succession

/-!
# Polyloft.Proofs.Rule.Unreachable

Statements that are never reached. On a well-nested program the rule reports exactly the lines that
come next behind a jump in the same block, branch or clause, but for two kinds of them
(`Analyzer.unreachable_code_is_reported`): a construct that is written on one line, and a line that
starts with the word `end` without being one. The one-line construct is held by a frame of its own, so
the rule takes it for part of another block (`Analyzer.one_line_construct_behind_jump`). Behind a jump
that stands in a switch before its first clause, the clause is reported where its line starts with an
annotation or a modifier.

The rule compares the frames of two lines by their numbers, so it is the scan of the rows
(`unreachableIn_eq`), and on a program the frame of each line is the one that the program gives it.
-/

namespace Polyloft

open Polyloft.Rule (jump?)

/-! ### A document -/

section

variable {a : Analysis} {owner : Nat → Nat} {range : Nat → Range} {lines : List Line} {n : Nat}

/-- The row of a line. -/
def Line.row (owner : Nat → Nat) (l : Line) : List Token × Nat :=
  (l.codeTokens, owner l.index)

/-- The search for the next statement of a frame looks at the rows only. -/
theorem followingIn_eq {frame : Option Frame} {o : Nat} (hframe : frame.map Frame.id = some o)
    (hnum : lines.map Line.index = List.range' n lines.length)
    (howner : ∀ l ∈ lines, (a.tree.frameAt? l.index).map Frame.id = some (owner l.index))
    (hrange : ∀ l ∈ lines, range l.index = l.codeRange) :
    (Rule.followingIn a frame lines).map Line.codeRange =
      (followingRow o n (lines.map (Line.row owner))).map range := by
  induction lines generalizing n with
  | nil => rfl
  | cons l lines ih =>
      rw [List.map_cons, List.length_cons, List.range'_succ] at hnum
      obtain ⟨rfl, hnum⟩ := List.cons.inj hnum
      obtain ⟨hl, howner⟩ := List.forall_mem_cons.1 howner
      obtain ⟨hlrange, hrange⟩ := List.forall_mem_cons.1 hrange
      rw [List.map_cons, Line.row]
      by_cases hnil : l.codeTokens = []
      · rw [followingRow, if_pos hnil, ← ih hnum howner hrange, Rule.followingIn, Rule.followingIn,
          List.find?_cons_of_neg (by simp [hnil])]
      · rw [followingRow_of_code hnil, Rule.followingIn, List.find?_cons_of_pos (by simp [hnil]),
          Option.filter_some, hl, hframe]
        change Option.map _ (if (!endsBlock l.codeTokens && some (owner l.index) == some o) = true
          then _ else _) = _
        rw [Option.some_beq_some]
        split
        · exact congrArg some hlrange.symm
        · rfl

/-- The rule is the scan of the rows. -/
theorem unreachableIn_eq
    (hnum : lines.map Line.index = List.range' n lines.length)
    (howner : ∀ l ∈ lines, (a.tree.frameAt? l.index).map Frame.id = some (owner l.index))
    (hrange : ∀ l ∈ lines, range l.index = l.codeRange) :
    Rule.unreachableIn a lines =
      (unreachableRows n (lines.map (Line.row owner))).map fun u =>
        ⟨range u.1, "Unreachable code after " ++ u.2 ++ " statement"⟩ := by
  induction lines generalizing n with
  | nil => rfl
  | cons l lines ih =>
      rw [List.map_cons, List.length_cons, List.range'_succ] at hnum
      obtain ⟨rfl, hnum⟩ := List.cons.inj hnum
      obtain ⟨hl, howner⟩ := List.forall_mem_cons.1 howner
      have hnext := followingIn_eq hl hnum howner (List.forall_mem_cons.1 hrange).2
      rw [List.map_cons, Line.row, Rule.unreachableIn, unreachableRows,
        ih hnum howner (List.forall_mem_cons.1 hrange).2, List.map_append]
      congr 1
      cases jump? l.codeTokens with
      | none => rfl
      | some word =>
          rw [Option.bind_some, Option.bind_some]
          generalize Rule.followingIn a (a.tree.frameAt? l.index) lines = next at hnext
          generalize followingRow (owner l.index) (l.index + 1) (lines.map (Line.row owner)) = m
            at hnext
          cases next <;> cases m <;> simp_all

/-- Every line of a program has the frame whose number the program gives it. -/
theorem frameAt?_of_owners {p : Items} {doc : Document} (hnum : doc.IsNumbered)
    (hlines : doc.lines.map Line.codeTokens = p.lines) {i o : Nat}
    (ho : (p.owners 1 0)[i]? = some o) :
    ((ScopeTree.build doc).frameAt? i).map Frame.id = some o := by
  obtain ⟨-, howners⟩ := ScopeTree.frames_build hnum hlines
  have hwell := ScopeTree.wellFormed_of_isNumbered hnum
  rw [← howners, Array.getElem?_toList] at ho
  obtain ⟨f, hf, -⟩ := hwell.encloses i (Array.getElem?_eq_some_iff.1 ho).1
  rw [hf, Option.map_some]
  rw [ScopeTree.frameAt?, if_neg (by omega), Int.toNat_natCast, ho] at hf
  exact congrArg some (hwell.id_eq hf)

/-- On a document whose lines are those of a well-nested program, the rule finds what is read off the
program. -/
theorem unreachableIn_program {p : Items} (range : Nat → Range) (hnum : a.document.IsNumbered)
    (htree : a.tree = ScopeTree.build a.document)
    (hlines : a.document.lines.map Line.codeTokens = p.lines)
    (hrange : ∀ l ∈ a.document.lines, range l.index = l.codeRange) :
    Rule.unreachableIn a a.document.lines =
      ((p.successions 0 none).filterMap verdict).map fun u =>
        ⟨range u.1, "Unreachable code after " ++ u.2 ++ " statement"⟩ := by
  have hlength : (p.owners 1 0).length = a.document.lines.length := by
    rw [p.length_owners, ← hlines, List.length_map]
  have hat {i : Nat} (hi : i < a.document.lines.length) :
      (p.owners 1 0)[i]? = some ((p.owners 1 0).getD i 0) := by
    rw [List.getD_eq_getElem?_getD, List.getElem?_eq_getElem (hlength ▸ hi), Option.getD_some]
  have hrows : a.document.lines.map (Line.row fun i => (p.owners 1 0).getD i 0) = p.rows 1 0 := by
    refine List.ext_getElem (by simp [Items.rows, ← hlines, hlength]) fun i hi _ => ?_
    rw [List.length_map] at hi
    have hindex : (a.document.lines[i]).index = i := hnum.index_eq (List.getElem?_eq_getElem hi)
    simp only [Items.rows, ← hlines, List.getElem_map, List.getElem_zip, Line.row, hindex]
    exact congrArg _ (Option.some.inj ((hat hi).symm.trans (List.getElem?_eq_getElem _)))
  rw [unreachableIn_eq (n := 0) (hnum.trans List.range_eq_range') ?_ hrange, hrows]
  · have hscan := unreachableRows_items p 0 1 0 none [] Nat.one_pos rfl
    rw [List.append_nil] at hscan
    rw [hscan]
    simp [unreachableRows]
  · intro l hl
    obtain ⟨i, hi⟩ := List.mem_iff_getElem?.1 hl
    rw [hnum.index_eq hi, htree]
    exact frameAt?_of_owners hnum hlines (hat (List.getElem?_eq_some_iff.1 hi).1)

end

/-! ### Reports -/

/-- A line of a program is told to be unreachable: it comes next behind a jump, and is judged there. -/
def Items.Unreached (p : Items) (number : Nat) (word : String) : Prop :=
  ∃ line next, (line, some next) ∈ p.successions 0 none ∧ IsJump word line.tokens ∧
    next.IsJudged ∧ next.number = number

theorem Items.mem_filterMap_verdict {p : Items} {number : Nat} {word : String} :
    (number, word) ∈ (p.successions 0 none).filterMap verdict ↔ p.Unreached number word := by
  rw [List.mem_filterMap]
  constructor
  · rintro ⟨⟨line, next?⟩, hmem, hverdict⟩
    obtain ⟨word', hjump, hnext⟩ := Option.bind_eq_some_iff.1 hverdict
    obtain ⟨number', hfound, heq⟩ := Option.map_eq_some_iff.1 hnext
    obtain ⟨rfl, rfl⟩ := Prod.mk.inj heq
    obtain ⟨next, hfilter, rfl⟩ := Option.map_eq_some_iff.1 hfound
    obtain ⟨rfl, hjudged⟩ := Option.filter_eq_some_iff.1 hfilter
    exact ⟨line, next, hmem, jump?_eq_some_iff.1 hjump, of_decide_eq_true hjudged, rfl⟩
  · rintro ⟨line, next, hmem, hjump, hjudged, rfl⟩
    refine ⟨_, hmem, ?_⟩
    rw [verdict, jump?_eq_some_iff.2 hjump, judged?_some, if_pos hjudged]
    rfl

/-- Lines told to be unreachable are lines of the program. -/
theorem Items.Unreached.lt {p : Items} {number : Nat} {word : String}
    (h : p.Unreached number word) : number < p.height := by
  have hscan := unreachableRows_items p 0 1 0 none [] Nat.one_pos rfl
  rw [List.append_nil] at hscan
  have hmem : (number, word) ∈ unreachableRows 0 (p.rows 1 0) := by
    rw [hscan]
    exact List.mem_append_left _ (Items.mem_filterMap_verdict.2 h)
  have hlt := lt_of_mem_unreachableRows hmem
  rwa [Items.rows, List.length_zip, p.length_owners, Nat.min_self, Nat.zero_add] at hlt

namespace Analyzer

/-- On a well-nested program, unreachable code is told by the program alone. Behind a plain line that
is a jump, the line that comes next is reported, with the word of the jump, exactly if it is judged:
it is the first line of a plain or longer item in the same block, branch or clause and does not start
with `end`, or it is the first clause of the switch and starts with an annotation or a modifier. No
other line is reported. If the rule is enabled and nothing is left out, the report lists just this. -/
theorem unreachable_code_is_reported (z : Analyzer) (p : Items) (text : List Char)
    (uri : Option String)
    (hlines : (Document.ofText text uri).lines.map Line.codeTokens = p.lines) :
    ∃ findings, Rule.unreachableCode.Finds ⟨z.prepare text uri, z.settings⟩ findings ∧
      (∀ number word, p.Unreached number word → number < (Document.ofText text uri).size) ∧
      (∀ f, f ∈ findings ↔ ∃ number word l, p.Unreached number word ∧
        (Document.ofText text uri).lines[number]? = some l ∧
        f = ⟨l.codeRange, "Unreachable code after " ++ word ++ " statement"⟩) ∧
      (z.settings.enabled = true → z.settings.ruleEnabled "unreachable-code" "PF-W107" = true →
        z.settings.maxDiagnostics = 0 →
        ∀ d, (d ∈ (z.analyze text uri).diagnostics ∧ d.code = "PF-W107") ↔
          ∃ f ∈ findings, d = Rule.unreachableCode.diagnostic f) := by
  have hnum := Document.isNumbered_ofText text uri
  have hlt {number : Nat} {word : String} (h : p.Unreached number word) :
      number < (Document.ofText text uri).lines.length := by
    have := h.lt
    rwa [Items.height, ← hlines, List.length_map] at this
  have hfinds : Rule.unreachableCode.Finds ⟨z.prepare text uri, z.settings⟩
      (Rule.unreachableIn (z.prepare text uri) (z.prepare text uri).document.lines) :=
    Rule.finds_of_check_eq_pure rfl
  refine ⟨_, hfinds, fun _ _ => hlt, fun f => ?_, fun henabled hrule hmax d => ?_⟩
  · -- The range of a line is looked up by its number.
    let range : Nat → Range := fun number =>
      ((Document.ofText text uri).lines[number]?).elim ⟨0, 0, 0⟩ Line.codeRange
    have hrange : ∀ {number : Nat} {l : Line}, (Document.ofText text uri).lines[number]? = some l →
        range number = l.codeRange := by
      intro number l hl
      simp only [range, hl, Option.elim_some]
    rw [unreachableIn_program range hnum rfl hlines ?_, List.mem_map]
    · constructor
      · rintro ⟨⟨number, word⟩, hmem, rfl⟩
        have hunreached := Items.mem_filterMap_verdict.1 hmem
        have hl := List.getElem?_eq_getElem (hlt hunreached)
        refine ⟨number, word, _, hunreached, hl, ?_⟩
        rw [hrange hl]
      · rintro ⟨number, word, l, hunreached, hl, rfl⟩
        refine ⟨(number, word), Items.mem_filterMap_verdict.2 hunreached, ?_⟩
        rw [hrange hl]
    · intro l hl
      obtain ⟨i, hi⟩ := List.mem_iff_getElem?.1 hl
      rw [hnum.index_eq hi]
      exact hrange hi
  · rw [show "PF-W107" = Rule.unreachableCode.code from rfl,
      mem_diagnostics_iff_of_finds henabled hmax (by simp [Rule.all]) hfinds]
    exact and_iff_right hrule

/-- A loop that is left before another loop. -/
def breakBeforeLoop : Items :=
  let word (text : String) (line column : Nat) : Token := ⟨.keyword, text, line, column, true⟩
  let colon (line column : Nat) : Token := ⟨.operator, ":", line, column, true⟩
  .block
    { tokens := [word "loop" 0 0, colon 0 4], opening := ⟨.plainLoop, none⟩
      ordinary := ⟨by decide, by decide, by rintro _ _ ⟨⟩; decide⟩
      opens := by decide, ends := by decide }
    (.plain
      { tokens := [word "break" 1 4]
        ordinary := ⟨by decide, by decide, by rintro _ _ ⟨⟩; decide⟩
        opens := by decide }
      (.blank
        (.block
          { tokens := [word "loop" 3 4, colon 3 8], opening := ⟨.plainLoop, none⟩
            ordinary := ⟨by decide, by decide, by rintro _ _ ⟨⟩; decide⟩
            opens := by decide, ends := by decide }
          .nil ⟨[word "end" 4 4], by decide⟩ .nil)))
    ⟨[word "end" 5 0], by decide⟩ .nil

theorem unreachable_code_is_reported_breakBeforeLoop :
    let text := "loop:\n    break\n    // on\n    loop:\n    end\nend".toList
    (Document.ofText text none).lines.map Line.codeTokens = breakBeforeLoop.lines ∧
      breakBeforeLoop.Unreached 3 "break" ∧
      ∃ d ∈ (unresolving.analyze text none).diagnostics, d.code = "PF-W107" ∧
        d.range = ⟨3, 4, 9⟩ ∧ d.message = "Unreachable code after break statement" := by
  intro text
  have hlines : (Document.ofText text none).lines.map Line.codeTokens = breakBeforeLoop.lines := by
    decide +kernel
  have hunreached : breakBeforeLoop.Unreached 3 "break" :=
    ⟨_, _, List.mem_singleton_self _, by decide, by decide, rfl⟩
  obtain ⟨findings, -, -, hfindings, hlisted⟩ :=
    unreachable_code_is_reported unresolving breakBeforeLoop text none hlines
  have hl : ((Document.ofText text none).lines[3]?.map Line.codeRange) = some ⟨3, 4, 9⟩ := by
    decide +kernel
  obtain ⟨l, hl, hrange⟩ := Option.map_eq_some_iff.1 hl
  have hfound := (hfindings _).2 ⟨3, "break", l, hunreached, hl, rfl⟩
  obtain ⟨hmem, hcode⟩ := (hlisted rfl (by decide) rfl _).2 ⟨_, hfound, rfl⟩
  exact ⟨hlines, hunreached, _, hmem, hcode, hrange, rfl⟩

/-- A function that is left before a construct on one line. -/
def returnBeforeOneLine : Items :=
  let word (text : String) (line column : Nat) : Token := ⟨.keyword, text, line, column, true⟩
  let name (text : String) (line column : Nat) : Token := ⟨.identifier, text, line, column, true⟩
  let sign (text : String) (line column : Nat) : Token := ⟨.punct, text, line, column, true⟩
  let colon (line column : Nat) : Token := ⟨.operator, ":", line, column, true⟩
  .block
    { tokens := [word "def" 0 0, name "f" 0 4, sign "(" 0 5, sign ")" 0 6, colon 0 7]
      opening := ⟨.function, some "f"⟩
      ordinary := ⟨by decide, by decide, by rintro _ _ ⟨⟩; decide⟩
      opens := by decide, ends := by decide }
    (.plain
      { tokens := [word "return" 1 1]
        ordinary := ⟨by decide, by decide, by rintro _ _ ⟨⟩; decide⟩
        opens := by decide }
      (.inline
        { tokens := [word "if" 2 1, name "a" 2 4, colon 2 5, name "g" 2 7, sign "(" 2 8,
            sign ")" 2 9, word "end" 2 11]
          opening := ⟨.ifBranch, none⟩
          ordinary := ⟨by decide, by decide, by rintro _ _ ⟨⟩; decide⟩
          opens := by decide, ends := by decide }
        .nil))
    ⟨[word "end" 3 0], by decide⟩ .nil

/-- The construct comes next in the block of the jump, and is not reported. -/
theorem one_line_construct_behind_jump :
    let text := "def f():\n return\n if a: g() end\nend".toList
    (Document.ofText text none).lines.map Line.codeTokens = returnBeforeOneLine.lines ∧
      (∃ line next, (line, some next) ∈ returnBeforeOneLine.successions 0 none ∧
        IsJump "return" line.tokens ∧ next.kind = .oneLine ∧ next.number = 2) ∧
      ∀ d ∈ (unresolving.analyze text none).diagnostics, d.code ≠ "PF-W107" := by
  intro text
  have hnothing : Rule.unreachableIn (unresolving.prepare text none)
      (unresolving.prepare text none).document.lines = [] := by
    decide +kernel
  have hfinds : Rule.unreachableCode.Finds ⟨unresolving.prepare text none, unresolving.settings⟩ [] :=
    Rule.finds_of_check_eq_pure (congrArg pure hnothing)
  refine ⟨by decide +kernel,
    ⟨_, _, List.mem_singleton_self _, by decide, rfl, rfl⟩, fun d hd hcode => ?_⟩
  obtain ⟨-, f, hf, -⟩ :=
    (mem_diagnostics_iff_of_finds rfl rfl (by simp [Rule.all]) hfinds).1 ⟨hd, hcode⟩
  exact List.not_mem_nil hf

end Analyzer

end Polyloft
