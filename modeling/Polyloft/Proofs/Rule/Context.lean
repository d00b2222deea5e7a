import Polyloft.Proofs.Analyzer
import Polyloft.Proofs.BlankLine.Document
import Polyloft.Proofs.Rule.Direct
import Polyloft.Proofs.Scope.Holders

/-!
# Polyloft.Proofs.Rule.Context

Words that need a construct around them. Three rules judge where `this`, `return`, `break` and
`continue` stand. On a well-nested program their verdict is read off the nesting of the program
itself (`Analyzer.words_judged_by_nesting`): a word is reported exactly if the blocks that hold its
line do not allow it, once on a line and at its first place there.
-/

namespace Polyloft

/-! ### Findings on a line -/

/-- In a numbered list of lines, what is found on one line comes from that line. -/
theorem filterMap_filter_line {g : Line → Option Token} (lines : List Line)
    (hg : ∀ l ∈ lines, ∀ t, g l = some t → t.line = l.index) (start n : Nat)
    (hnum : lines.map Line.index = List.range' start lines.length) :
    (lines.filterMap g).filter (fun t => t.line == start + n) = (lines[n]?.bind g).toList := by
  induction lines generalizing start n with
  | nil => rfl
  | cons l lines ih =>
      rw [List.map_cons, List.length_cons, List.range'_succ] at hnum
      obtain ⟨hindex, hlater⟩ := List.cons.inj hnum
      obtain ⟨hl, hlines⟩ := List.forall_mem_cons.1 hg
      cases n with
      | zero =>
          -- The lines behind the first one have greater numbers.
          have hnone : (lines.filterMap g).filter (fun t => t.line == start) = [] := by
            rw [List.filter_eq_nil_iff]
            intro t ht
            obtain ⟨m, hm, ht⟩ := List.mem_filterMap.1 ht
            have hle := List.mem_map_of_mem (f := Line.index) hm
            rw [hlater, List.mem_range'_1] at hle
            have hline := hlines m hm t ht
            simp only [beq_iff_eq]
            omega
          cases hgl : g l with
          | none => simp [hgl, hnone]
          | some t => simp [hgl, hnone, hl t hgl, hindex]
      | succ n =>
          have hfound := ih hlines (start + 1) n hlater
          rw [Nat.add_right_comm, Nat.add_assoc] at hfound
          cases hgl : g l with
          | none => simpa [hgl] using hfound
          | some t =>
              have hline : t.line ≠ start + (n + 1) := by
                rw [hl t hgl, hindex]
                omega
              simpa [hgl, hline] using hfound

theorem eq_of_perm_of_length_le_one {α : Type} {xs ys : List α} (h : xs.Perm ys)
    (hlength : ys.length ≤ 1) : xs = ys := by
  match ys, hlength with
  | [], _ => exact h.eq_nil
  | [y], _ => exact List.perm_singleton.1 h

/-- The places on a line. -/
def onLine (n : Nat) (places : List Range) : List Range :=
  places.filter fun place => place.line == (n : Int)

theorem onLine_map {α : Type} (n : Nat) (f : α → Range) (xs : List α) :
    onLine n (xs.map f) = (xs.filter fun x => (f x).line == (n : Int)).map f := by
  rw [onLine, List.filter_map]
  rfl

/-- The places that a rule about words finds on a line of a text: none if the line is inside a
construct of the kind, else the first of the words. -/
theorem Rule.onLine_misplaced {a : Analysis} {text : List Char} {uri : Option String}
    (hdoc : a.document = Document.ofText text uri) (words : List String) (kind : BlockKind)
    (message : Token → String) {n : Nat} {l : Line} (hl : a.document.lines[n]? = some l) :
    onLine n (((a.document.lines.filterMap (misplacedIn a words kind)).map fun t =>
        (⟨t.range, message t⟩ : Finding)).map Finding.range) =
      if a.tree.contains n kind then []
      else ((l.codeTokens.find? (·.isKeywordIn words)).map Token.range).toList := by
  have hnum : a.document.IsNumbered := hdoc ▸ Document.isNumbered_ofText text uri
  have hline (m : Line) (hm : m ∈ a.document.lines) (t : Token)
      (ht : misplacedIn a words kind m = some t) : t.line = m.index := by
    have ht := List.mem_of_find?_eq_some (Option.filter_eq_some_iff.1 ht).1
    rw [hdoc, Document.lines_ofText] at hm
    exact line_of_mem_linesFrom hm (List.mem_of_mem_filter ht)
  have hfilter := filterMap_filter_line a.document.lines hline 0 n
    (hnum.trans List.range_eq_range')
  rw [Nat.zero_add, hl, Option.bind_some] at hfilter
  have hrange (t : Token) : (t.range.line == (n : Int)) = (t.line == n) := by
    rw [Bool.eq_iff_iff, beq_iff_eq, beq_iff_eq]
    exact Int.natCast_inj
  rw [List.map_map, show Finding.range ∘ (fun t => (⟨t.range, message t⟩ : Finding)) = Token.range
    from rfl, onLine_map]
  simp only [hrange, hfilter, misplacedIn, hnum.index_eq hl]
  cases a.tree.contains n kind <;> cases l.codeTokens.find? (·.isKeywordIn words) <;> rfl

/-! ### Reports -/

namespace Analyzer

/-- On a line of a text, a rule reports the given places: it finds them there whatever the settings
are, and if it is enabled and nothing is left out, the report lists them. -/
structure Reports (z : Analyzer) (text : List Char) (uri : Option String) (r : Rule) (n : Nat)
    (places : List Range) : Prop where
  found : ∃ findings, r.Finds ⟨z.prepare text uri, z.settings⟩ findings ∧
    onLine n (findings.map Finding.range) = places
  listed : z.settings.enabled = true → z.settings.ruleEnabled r.name r.code = true →
    z.settings.maxDiagnostics = 0 →
    onLine n (((z.analyze text uri).diagnostics.filter (·.code == r.code)).map Diagnostic.range) =
      places

variable {z : Analyzer} {text : List Char} {uri : Option String} {r : Rule} {n : Nat}
  {findings : List Finding} {places : List Range}

/-- Where a rule finds at most one thing on a line, the report lists it there as often. -/
theorem filter_diagnostics_of_finds (henabled : z.settings.enabled = true)
    (hrule : z.settings.ruleEnabled r.name r.code = true) (hmax : z.settings.maxDiagnostics = 0)
    (hr : r ∈ Rule.all) (hfinds : r.Finds ⟨z.prepare text uri, z.settings⟩ findings)
    (hlength : (findings.filter fun f => f.range.line == (n : Int)).length ≤ 1) :
    ((z.analyze text uri).diagnostics.filter fun d =>
        d.code == r.code && d.range.line == (n : Int)) =
      (findings.filter fun f => f.range.line == (n : Int)).map r.diagnostic := by
  rw [← List.length_map (f := r.diagnostic)] at hlength
  have hnodup : ((z.analyze text uri).diagnostics.filter fun d =>
      d.code == r.code && d.range.line == (n : Int)).Nodup := by
    rw [diagnostics_analyze henabled hmax]
    exact (Report.nodup_arrange _).filter _
  have hnodup' : ((findings.filter fun f => f.range.line == (n : Int)).map r.diagnostic).Nodup := by
    rw [List.nodup_iff_count_le_one]
    exact fun d => Nat.le_trans List.count_le_length hlength
  have hperm := (List.perm_ext_iff_of_nodup hnodup hnodup').2 fun d => by
    have hiff := mem_diagnostics_iff_of_finds henabled hmax hr hfinds (d := d)
    simp only [hrule, true_and] at hiff
    simp only [List.mem_filter, List.mem_map, Bool.and_eq_true, beq_iff_eq, ← and_assoc, hiff]
    constructor
    · rintro ⟨⟨f, hf, rfl⟩, hline⟩
      exact ⟨f, ⟨hf, hline⟩, rfl⟩
    · rintro ⟨f, ⟨hf, hline⟩, rfl⟩
      exact ⟨⟨f, hf, rfl⟩, hline⟩
  exact eq_of_perm_of_length_le_one hperm hlength

/-- A rule that finds at most one thing on the line reports what it finds. -/
theorem reports_of_finds (hr : r ∈ Rule.all)
    (hfinds : r.Finds ⟨z.prepare text uri, z.settings⟩ findings)
    (hplaces : onLine n (findings.map Finding.range) = places) (hlength : places.length ≤ 1) :
    z.Reports text uri r n places := by
  refine ⟨⟨findings, hfinds, hplaces⟩, ?_⟩
  intro henabled hrule hmax
  rw [onLine_map] at hplaces
  rw [← hplaces, List.length_map] at hlength
  rw [onLine_map, List.filter_filter]
  simp only [Bool.and_comm (_ == (n : Int))]
  rw [filter_diagnostics_of_finds henabled hrule hmax hr hfinds hlength, List.map_map]
  exact hplaces

/-- On a line with the given tokens, a rule reports the first of the words, exactly if there is one
and it is not allowed there. -/
def JudgesWords (z : Analyzer) (text : List Char) (uri : Option String) (r : Rule) (n : Nat)
    (tokens : List Token) (words : List String) (allowed : Prop) : Prop :=
  ∃ places, z.Reports text uri r n places ∧
    (places ≠ [] ↔ (∃ t ∈ tokens, t.isKeywordIn words = true) ∧ ¬ allowed) ∧
    (places ≠ [] → places = ((tokens.find? (·.isKeywordIn words)).map Token.range).toList)

theorem judgesWords_of_contains {l : Line} {words : List String} {kind : BlockKind}
    {message : Token → String} {allowed : Prop} (hr : r ∈ Rule.all)
    (hcheck : r.check ⟨z.prepare text uri, z.settings⟩ =
      pure (((z.prepare text uri).document.lines.filterMap
        (Rule.misplacedIn (z.prepare text uri) words kind)).map fun t => ⟨t.range, message t⟩))
    (hl : (Document.ofText text uri).lines[n]? = some l)
    (hallowed : (z.prepare text uri).tree.contains n kind = true ↔ allowed) :
    z.JudgesWords text uri r n l.codeTokens words allowed := by
  have hplaces := Rule.onLine_misplaced (a := z.prepare text uri) rfl words kind message hl
  refine ⟨_, reports_of_finds hr (Rule.finds_of_check_eq_pure hcheck) hplaces ?_, ?_, ?_⟩
  · split
    · exact Nat.zero_le _
    · cases (l.codeTokens.find? (·.isKeywordIn words)).map Token.range <;> simp
  · rw [← hallowed]
    split
    · simp [*]
    · simp [*]
  · split
    · simp
    · exact fun _ => rfl

/-- On a well-nested program, words that need a construct around them are judged by the nesting of
the program alone. On every line, `break` and `continue` are reported exactly if no loop is met
before the first function, class-like or interface on the way outwards, `return` exactly if no
function holds the line, and `this` exactly if no function that holds the line is directly in a
class-like for which it is a method. Each is reported once on a line, at the first of the words. -/
theorem words_judged_by_nesting (z : Analyzer) (p : Items) (text : List Char)
    (uri : Option String) (hlines : (Document.ofText text uri).lines.map Line.codeTokens = p.lines)
    {n : Nat} {tokens : List Token} {blocks : List Opening} (htokens : p.lines[n]? = some tokens)
    (hblocks : (p.holders [])[n]? = some blocks) :
    z.JudgesWords text uri .breakOutsideLoop n tokens ["break", "continue"] (InLoop blocks) ∧
      z.JudgesWords text uri .returnOutsideFunction n tokens ["return"] (InFunction blocks) ∧
      z.JudgesWords text uri .thisOutsideClass n tokens ["this"] (InMethod blocks) := by
  have hnum := Document.isNumbered_ofText text uri
  obtain ⟨i, hheld, haround⟩ := ScopeTree.exists_heldBy_of_holders hnum hlines hblocks
  obtain ⟨l, hl, rfl⟩ : ∃ l, (Document.ofText text uri).lines[n]? = some l ∧
      l.codeTokens = tokens := by
    rw [← hlines, List.getElem?_map] at htokens
    exact Option.map_eq_some_iff.1 htokens
  refine ⟨judgesWords_of_contains (by simp [Rule.all]) rfl hl ?_,
    judgesWords_of_contains (by simp [Rule.all]) rfl hl ?_,
    judgesWords_of_contains (by simp [Rule.all]) rfl hl ?_⟩
  · rw [← hheld.meetsLoop_iff, ← haround]
    rfl
  · rw [← hheld.any_function_iff, ← haround]
    rfl
  · rw [← hheld.any_isMethod_iff, ← haround]
    rfl

/-- A function in a loop in a class, with a construct on one line in it. -/
def loopedMethod : Items :=
  let word (text : String) (line column : Nat) : Token := ⟨.keyword, text, line, column, true⟩
  let name (text : String) (line column : Nat) : Token := ⟨.identifier, text, line, column, true⟩
  let colon (line column : Nat) : Token := ⟨.operator, ":", line, column, true⟩
  .block
    { tokens := [word "class" 0 0, name "C" 0 6, colon 0 7]
      opening := ⟨.classBody, some "C"⟩
      ordinary := ⟨by decide, by decide, by rintro _ _ ⟨⟩; decide⟩
      opens := by decide, ends := by decide }
    (.block
      { tokens := [word "for" 1 1, name "x" 1 5, word "in" 1 7, name "xs" 1 10, colon 1 12]
        opening := ⟨.forLoop, none⟩
        ordinary := ⟨by decide, by decide, by rintro _ _ ⟨⟩; decide⟩
        opens := by decide, ends := by decide }
      (.block
        { tokens := [word "def" 2 2, name "f" 2 6, ⟨.punct, "(", 2, 7, true⟩,
            ⟨.punct, ")", 2, 8, true⟩, colon 2 9]
          opening := ⟨.function, some "f"⟩
          ordinary := ⟨by decide, by decide, by rintro _ _ ⟨⟩; decide⟩
          opens := by decide, ends := by decide }
        (.inline
          { tokens := [word "if" 3 3, word "this" 3 6, colon 3 10, word "break" 3 12,
              word "end" 3 18]
            opening := ⟨.ifBranch, none⟩
            ordinary := ⟨by decide, by decide, by rintro _ _ ⟨⟩; decide⟩
            opens := by decide, ends := by decide }
          .nil)
        ⟨[word "end" 4 2], by decide⟩ .nil)
      ⟨[word "end" 5 1], by decide⟩ .nil)
    ⟨[word "end" 6 0], by decide⟩ .nil

/-- Neither the loop nor the class is around the line on one side of the function: `this` and
`break` on it are both misplaced. -/
theorem words_judged_by_nesting_loopedMethod :
    let text :=
      "class C:\n for x in xs:\n  def f():\n   if this: break end\n  end\n end\nend".toList
    let blocks : List Opening :=
      [⟨.ifBranch, none⟩, ⟨.function, some "f"⟩, ⟨.forLoop, none⟩, ⟨.classBody, some "C"⟩]
    ∃ tokens, loopedMethod.lines[3]? = some tokens ∧
      (loopedMethod.holders [])[3]? = some blocks ∧
      unresolving.JudgesWords text none .breakOutsideLoop 3 tokens ["break", "continue"]
        (InLoop blocks) ∧
      unresolving.JudgesWords text none .returnOutsideFunction 3 tokens ["return"]
        (InFunction blocks) ∧
      unresolving.JudgesWords text none .thisOutsideClass 3 tokens ["this"] (InMethod blocks) :=
  ⟨_, rfl, rfl, words_judged_by_nesting unresolving loopedMethod _ none (by decide +kernel) rfl rfl⟩

end Analyzer

end Polyloft
