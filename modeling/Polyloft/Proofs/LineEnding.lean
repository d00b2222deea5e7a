import Polyloft.Analyzer
import Polyloft.Proofs.Place.Token

/-!
# Polyloft.Proofs.LineEnding

Line endings do not matter. Lines may be written with a line feed, a carriage return or the two
together between them, mixed in any way, and are read as the same document, so that everything said
about it is the same. Only one mixture is misread: a carriage return and then an empty line that a
line feed ends look like one ending of two characters (`Merges`). Reading is also done once: the
text of a document has the lines of the document.

## Proof shape

An ending behind a line is read as one line feed, and if it is a carriage return it takes along the
line feed that follows (`linesOf_append_ending`). Since a line has no line feed of its own, the one
that follows is the ending of an empty line, so the rest is an induction over the lines.
-/

namespace Polyloft

open Polyloft.Text

/-- The ways to end a line. -/
inductive LineEnding where
  | lf
  | crlf
  | cr
deriving DecidableEq, Repr

namespace LineEnding

/-- The characters of the ending. -/
def chars : LineEnding → List Char
  | .lf => ['\n']
  | .crlf => ['\r', '\n']
  | .cr => ['\r']

variable {e : Nat → LineEnding} {line : List Char} {lines : List (List Char)}

/-- Writes lines with an ending between each two; `e i` stands behind line `i`. -/
def joinLines (e : Nat → LineEnding) : List (List Char) → List Char
  | [] => []
  | [line] => line
  | line :: lines => line ++ ((e 0).chars ++ joinLines (fun i => e (i + 1)) lines)

/-- A carriage return behind line `i` and a line feed behind the next line, which is empty. -/
def Merges (e : Nat → LineEnding) (lines : List (List Char)) (i : Nat) : Prop :=
  e i = .cr ∧ e (i + 1) = .lf ∧ lines[i + 1]? = some [] ∧ i + 2 < lines.length

/-- No carriage return is directly followed by an empty line that a line feed ends. -/
def Unambiguous (e : Nat → LineEnding) (lines : List (List Char)) : Prop :=
  ∀ i, ¬Merges e lines i

instance (e : Nat → LineEnding) (lines : List (List Char)) (i : Nat) :
    Decidable (Merges e lines i) :=
  inferInstanceAs (Decidable (_ ∧ _ ∧ _ ∧ _))

instance (e : Nat → LineEnding) (lines : List (List Char)) : Decidable (Unambiguous e lines) :=
  decidable_of_iff (∀ i < lines.length, ¬Merges e lines i)
    ⟨fun h i hi => h i (by have := hi.2.2.2; omega) hi, fun h i _ => h i⟩

theorem unambiguous_cons :
    Unambiguous e (line :: lines) ↔
      ¬Merges e (line :: lines) 0 ∧ Unambiguous (fun i => e (i + 1)) lines := by
  have hsucc (i : Nat) :
      Merges e (line :: lines) (i + 1) ↔ Merges (fun i => e (i + 1)) lines i := by
    have hlength : i + 1 + 2 < lines.length + 1 ↔ i + 2 < lines.length := by omega
    simp [Merges, hlength]
  constructor
  · exact fun h => ⟨h 0, fun i hi => h (i + 1) ((hsucc i).2 hi)⟩
  · rintro ⟨hzero, h⟩ (_ | i) hi
    · exact hzero hi
    · exact h i ((hsucc i).1 hi)

/-! ### One ending -/

theorem normaliseNewlines_append (h : '\r' ∉ line) (cs : List Char) :
    normaliseNewlines (line ++ cs) = line ++ normaliseNewlines cs := by
  induction line with
  | nil => rfl
  | cons c line ih =>
      rw [List.mem_cons, not_or] at h
      rw [List.cons_append, normaliseNewlines, ih h.2, List.cons_append]
      · rintro cs rfl
        exact absurd rfl h.1
      · exact fun hc => absurd hc.symm h.1

theorem normaliseNewlines_chars (end' : LineEnding) (cs : List Char) :
    normaliseNewlines (end'.chars ++ cs) =
      if end' = .cr ∧ cs.head? = some '\n' then normaliseNewlines cs
      else '\n' :: normaliseNewlines cs := by
  cases end' with
  | lf => rfl
  | crlf => rfl
  | cr =>
      cases cs with
      | nil => rfl
      | cons c cs =>
          by_cases hc : c = '\n'
          · subst hc
            rfl
          · simp [chars, normaliseNewlines, hc]

/-- A line with an ending behind it is read as the line, with the rest behind it; but a carriage
return takes along a line feed. -/
theorem linesOf_append_ending (hline : '\r' ∉ line ∧ '\n' ∉ line) (end' : LineEnding)
    (cs : List Char) :
    linesOf (line ++ (end'.chars ++ cs)) =
      line :: if end' = .cr ∧ cs.head? = some '\n' then (linesOf cs).tail else linesOf cs := by
  rw [linesOf, normaliseNewlines_append hline.1, normaliseNewlines_chars]
  split
  · rename_i hmerge
    obtain ⟨cs, rfl⟩ := List.head?_eq_some_iff.1 hmerge.2
    have hhead : normaliseNewlines ('\n' :: cs) = '\n' :: normaliseNewlines cs := rfl
    rw [linesOf, hhead, splitLines, splitOnChar_append hline.2]
    rfl
  · exact splitOnChar_append hline.2 _

/-! ### All endings -/

theorem linesOf_of_plain (hline : '\r' ∉ line ∧ '\n' ∉ line) : linesOf line = [line] := by
  rw [linesOf, normaliseNewlines_of_not_mem hline.1]
  exact splitOnChar_of_not_mem hline.2

/-- Endings can merge, so that there are fewer lines, but there are never more. -/
theorem length_linesOf_joinLines_le (hlines : ∀ line ∈ lines, '\r' ∉ line ∧ '\n' ∉ line)
    (hne : lines ≠ []) : (linesOf (joinLines e lines)).length ≤ lines.length := by
  fun_induction joinLines e lines with
  | case1 => exact absurd rfl hne
  | case2 e line =>
      have hone := linesOf_of_plain (hlines line (List.mem_singleton_self line))
      exact Nat.le_of_eq (congrArg List.length hone)
  | case3 e line lines hmore ih =>
      rw [List.forall_mem_cons] at hlines
      have hle := ih hlines.2 hmore
      rw [linesOf_append_ending hlines.1, List.length_cons, List.length_cons]
      split
      · rw [List.length_tail]
        omega
      · omega

/-- A carriage return takes along a line feed exactly where the endings merge. -/
theorem merges_zero_iff (hlines : ∀ line ∈ lines, '\r' ∉ line ∧ '\n' ∉ line) :
    Merges e (line :: lines) 0 ↔
      e 0 = .cr ∧ (joinLines (fun i => e (i + 1)) lines).head? = some '\n' := by
  cases lines with
  | nil => simp [Merges, joinLines]
  | cons next rest =>
      have hnext : next.head? ≠ some '\n' := fun hhead =>
        (hlines next (List.mem_cons_self ..)).2 (List.mem_of_mem_head? hhead)
      cases rest with
      | nil => simpa [Merges, joinLines] using fun _ => hnext
      | cons more rest =>
          rw [joinLines]
          · cases next with
            | nil => cases h : e 1 <;> simp [Merges, chars, h]
            | cons c next => simpa [Merges] using fun _ => hnext
          · simp

/-- Lines are read as they were written exactly if no endings merge. -/
theorem linesOf_joinLines_iff (hlines : ∀ line ∈ lines, '\r' ∉ line ∧ '\n' ∉ line) :
    linesOf (joinLines e lines) = lines ↔ lines ≠ [] ∧ Unambiguous e lines := by
  fun_induction joinLines e lines with
  | case1 => simp [linesOf, normaliseNewlines, splitLines, splitOnChar]
  | case2 e line =>
      rw [linesOf_of_plain (hlines line (List.mem_singleton_self line))]
      simp [Unambiguous, Merges]
  | case3 e line lines hmore ih =>
      rw [List.forall_mem_cons] at hlines
      have hle := length_linesOf_joinLines_le (e := fun i => e (i + 1)) hlines.2 hmore
      rw [linesOf_append_ending hlines.1, unambiguous_cons, merges_zero_iff hlines.2,
        List.cons.injEq, eq_self, true_and]
      split
      · rename_i hmerge
        -- One line is missing, so that the lines are not all there.
        refine ⟨fun heq => ?_, fun h => absurd hmerge h.2.1⟩
        have hpos := List.length_pos_iff.2 hmore
        have hlength := congrArg List.length heq
        rw [List.length_tail] at hlength
        omega
      · rename_i hmerge
        rw [ih hlines.2]
        exact ⟨fun h => ⟨List.cons_ne_nil _ _, hmerge, h.2⟩, fun h => ⟨hmore, h.2.2⟩⟩

end LineEnding

/-! ### Documents -/

namespace Document

open LineEnding

@[simp] theorem map_text_lines (text : List Char) (uri : Option String) :
    (ofText text uri).lines.map Line.text = linesOf text := by
  rw [lines_ofText, map_text_linesFrom]

/-- Texts with the same lines are the same document. -/
theorem ofText_congr {text text' : List Char} (h : linesOf text = linesOf text')
    (uri : Option String) : ofText text uri = ofText text' uri :=
  congrArg (fun texts => (⟨linesFrom 0 false texts, uri⟩ : Document)) h

/-- The text of a document has its lines. -/
theorem linesOf_text (text : List Char) (uri : Option String) :
    linesOf (ofText text uri).text = linesOf text := by
  have htext : (ofText text uri).text = normaliseNewlines text := by
    rw [Document.text, map_text_lines]
    exact joinLines_splitLines _
  rw [htext, linesOf, normaliseNewlines_of_not_mem (not_mem_normaliseNewlines text)]
  rfl

/-- Lines without line breaks of their own, written with any endings between them, are read as they
are and in order, exactly if there are some and no endings merge; so the endings make no difference
to anything that is said about the document. No lines at all are written as the empty text, which
has one line. Every document has the lines of its own text. -/
theorem line_endings_do_not_matter (lines : List (List Char))
    (hlines : ∀ line ∈ lines, '\r' ∉ line ∧ '\n' ∉ line) (uri : Option String) :
    (∀ e, let doc := ofText (LineEnding.joinLines e lines) uri
      (doc.lines.map Line.text = lines ↔ lines ≠ [] ∧ Unambiguous e lines) ∧
        (lines = [] → doc.lines.map Line.text = [[]]) ∧
        doc.lines.map Line.index = List.range doc.size) ∧
    (∀ e e', Unambiguous e lines → Unambiguous e' lines →
      let text := LineEnding.joinLines e lines
      let text' := LineEnding.joinLines e' lines
      ofText text uri = ofText text' uri ∧
        ∀ z : Analyzer, z.prepare text uri = z.prepare text' uri ∧
          z.analyze text uri = z.analyze text' uri) ∧
    ∀ text uri', (ofText (ofText text uri).text uri').lines = (ofText text uri).lines := by
  refine ⟨fun e => ⟨?_, ?_, isNumbered_ofText _ _⟩, fun e e' he he' => ?_, fun text uri' => ?_⟩
  · rw [map_text_lines]
    exact linesOf_joinLines_iff hlines
  · rintro rfl
    rw [map_text_lines]
    rfl
  · have hsame : linesOf (LineEnding.joinLines e lines) =
        linesOf (LineEnding.joinLines e' lines) := by
      by_cases hne : lines = []
      · rw [hne]
        rfl
      · rw [(linesOf_joinLines_iff hlines).2 ⟨hne, he⟩, (linesOf_joinLines_iff hlines).2 ⟨hne, he'⟩]
    have hdoc := ofText_congr hsame uri
    refine ⟨hdoc, fun z => ?_⟩
    have hprepare : z.prepare (LineEnding.joinLines e lines) uri =
        z.prepare (LineEnding.joinLines e' lines) uri :=
      congrArg (Analysis.ofDocument · z.catalog) hdoc
    exact ⟨hprepare, by rw [Analyzer.analyze, hprepare, Analyzer.analyze]⟩
  · rw [lines_ofText, linesOf_text]
    rfl

/-- Every ending, with an empty line behind a carriage return that both characters end. -/
theorem line_endings_do_not_matter_mixed :
    let lines := ["let a = 1".toList, [], "/* b".toList, "*/".toList]
    let e : Nat → LineEnding := fun i => [.cr, .crlf, .lf].getD i .lf
    (∀ line ∈ lines, '\r' ∉ line ∧ '\n' ∉ line) ∧ lines ≠ [] ∧ Unambiguous e lines ∧
      (ofText (LineEnding.joinLines e lines) none).lines.map Line.text = lines ∧
      ∀ z : Analyzer, z.analyze (LineEnding.joinLines e lines) none =
        z.analyze (LineEnding.joinLines (fun _ => .lf) lines) none := by
  intro lines e
  have hlines : ∀ line ∈ lines, '\r' ∉ line ∧ '\n' ∉ line := by decide
  have hmixed : Unambiguous e lines := by decide
  have hplain : Unambiguous (fun _ => .lf) lines := by decide
  have h := line_endings_do_not_matter lines hlines none
  exact ⟨hlines, by decide, hmixed, (h.1 e).1.2 ⟨by decide, hmixed⟩,
    fun z => ((h.2.1 e _ hmixed hplain).2 z).2⟩

/-- A text always has a line, so that it is not enough that no endings merge. -/
theorem line_endings_add_line_to_none :
    ¬∀ (lines : List (List Char)), (∀ line ∈ lines, '\r' ∉ line ∧ '\n' ∉ line) →
      ∀ e, Unambiguous e lines →
        (ofText (LineEnding.joinLines e lines) none).lines.map Line.text = lines := by
  intro h
  have hnone := h [] (by decide) (fun _ => .lf) (by decide)
  exact absurd hnone (by decide)

end Document

end Polyloft
