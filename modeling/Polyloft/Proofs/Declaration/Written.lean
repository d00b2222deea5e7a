import Polyloft.Proofs.Declaration.Name
import Polyloft.Proofs.Declaration.Prefix

/-!
# Polyloft.Proofs.Declaration.Written

Declarations point at their own names. The shapes of declarations are read from the masked text of a
line, where comments and the insides of literals are blanked, while their columns are used with the
text as it is written. At the place of a name the two are the same: the line has the declared name
there, outside of its comments and literals. Parameters and components are placed by counting pieces
instead, and may miss.

## Proof shape

What stands in the masked text over a comment is a blank, and over a literal a blank or a quote
(`Line.masked_of_comment`, `Line.Lexed.masked_of_string`). No character of a name is one of these
(`isName`), so masking has left each of them as it was (`Document.written_of_masked`).
-/

namespace Polyloft

open Polyloft.Text

/-- What stands inside of a span is in its text. -/
theorem Text.Span.mem_slice {s : Span} {cs : List Char} {k : Nat} {c : Char} (hc : cs[k]? = some c)
    (hk : s.start ≤ k ∧ k < s.stop) : c ∈ s.slice cs := by
  obtain ⟨i, rfl⟩ := Nat.exists_eq_add_of_le hk.1
  rw [← List.getElem?_drop] at hc
  refine List.mem_of_getElem? (i := i) ?_
  rw [Span.slice, List.getElem?_take_of_lt (by omega), hc]

/-- A character of a word is none that masking leaves behind. -/
theorem Text.ne_of_isWord {c : Char} (h : isWord c = true) : c ≠ ' ' ∧ c ≠ '"' ∧ c ≠ '\'' := by
  refine ⟨?_, ?_, ?_⟩ <;> rintro rfl <;> exact absurd h (by decide)

/-! ### Masked lines -/

namespace Line

variable {l : Line} {t : Token} {k : Nat}

/-- Nothing is left of a comment. -/
theorem masked_of_comment (ht : t ∈ l.tokens) (hkind : t.kind = .comment) (hk : t.StandsOver k)
    (hlength : k < l.text.length) : l.masked[k]? = some ' ' :=
  l.blanks_masked.blank (getElem?_code_of_comment ht hkind hk hlength)

/-- Nothing but its quotes is left of a literal. -/
theorem Lexed.masked_of_string (h : l.Lexed) (ht : t ∈ l.codeTokens) (hkind : t.kind = .string)
    (hk : t.StandsOver k) {c : Char} (hc : l.masked[k]? = some c) :
    c = ' ' ∨ c = '"' ∨ c = '\'' := by
  have hcode : t ∈ (lexFrom l.index 0 l.code).1 := by
    rw [h.code]
    exact ht
  have htiles : Tiles l.masked 0 (lexFrom l.index 0 l.masked).1 := tiles_lexFrom l.index rfl
  rw [h.masked] at htiles
  have hslice := (htiles.slice (List.mem_map_of_mem ht)).2
  have halike := t.alike_masked
  refine Token.eq_of_mem_masked hcode hkind ?_
  rw [hslice, halike.column, halike.stop]
  exact Span.mem_slice hc hk

end Line

/-- A name in the masked text of a line is in the text itself, outside of comments and literals. -/
theorem Document.written_of_masked {text : List Char} {uri : Option String} {l : Line}
    (hl : l ∈ (ofText text uri).lines) {name : List Char} {column : Nat}
    (hname : isName name = true) (hbegins : name <+: l.masked.drop column) :
    name <+: l.text.drop column ∧
      ∀ t ∈ l.tokens, t.kind = .comment ∨ t.kind = .string →
        ∀ k, column ≤ k → k < column + name.length → ¬t.StandsOver k := by
  have hmasked {i : Nat} (hi : i < name.length) : l.masked[column + i]? = some name[i] := by
    rw [← List.getElem?_drop]
    exact List.prefix_iff_getElem?.1 hbegins i hi
  have hword {i : Nat} (hi : i < name.length) :=
    ne_of_isWord (isWord_of_mem hname (List.getElem_mem hi))
  have htext {i : Nat} (hi : i < name.length) : l.text[column + i]? = some name[i] :=
    (l.blanks_code.trans l.blanks_masked).getElem?_eq (hmasked hi) (hword hi).1
  refine ⟨?_, ?_⟩
  · refine List.prefix_iff_getElem?.2 fun i hi => ?_
    rw [List.getElem?_drop]
    exact htext hi
  · intro t ht hkind k hle hlt hk
    obtain ⟨i, rfl⟩ := Nat.exists_eq_add_of_le hle
    have hi : i < name.length := by omega
    rcases hkind with hkind | hkind
    · have hlength := (List.getElem?_eq_some_iff.1 (htext hi)).1
      have hblank := Line.masked_of_comment ht hkind hk hlength
      rw [hmasked hi] at hblank
      exact (hword hi).1 (Option.some.inj hblank)
    · have hcode : t ∈ l.codeTokens := List.mem_filter.2 ⟨ht, by simp [hkind]⟩
      obtain ⟨hlexed, -⟩ := lexed_of_codeTokens_ne_nil hl (List.ne_nil_of_mem hcode)
      rcases hlexed.masked_of_string hcode hkind hk (hmasked hi) with h | h | h
      · exact (hword hi).1 h
      · exact (hword hi).2.1 h
      · exact (hword hi).2.2 h

/-! ### Declarations -/

/-- The line has the name of the declaration from its column on, and no part of that is in a comment
or in a literal. -/
structure Declaration.WrittenOn (d : Declaration) (l : Line) : Prop where
  isName : isName d.name.toList = true
  slice : Span.slice ⟨d.column, d.stopColumn⟩ l.text = d.name.toList
  code : ∀ t ∈ l.tokens, t.kind = .comment ∨ t.kind = .string →
    ∀ k, d.column ≤ k → k < d.stopColumn → ¬t.StandsOver k

theorem Declaration.NamedOn.writtenOn {text : List Char} {uri : Option String} {l : Line}
    {d : Declaration} (h : d.NamedOn l) (hl : l ∈ (Document.ofText text uri).lines)
    (hkeyword : d.form.keyword ∉ ["param", "component"]) : d.WrittenOn l := by
  rcases h with ⟨hname, hbegins⟩ | ⟨⟨hform, -⟩ | hform, -⟩
  · obtain ⟨htext, hcode⟩ := Document.written_of_masked hl hname hbegins
    refine ⟨hname, ?_, ?_⟩
    · rw [Span.slice, stopColumn, Nat.add_sub_cancel_left, ← String.length_toList]
      exact (List.prefix_iff_eq_take.1 htext).symm
    · rwa [String.length_toList] at hcode
  · exact absurd (by rw [hform]; decide) hkeyword
  · exact absurd (by rw [hform]; decide) hkeyword

namespace DeclarationTable

/-- Declarations are in the order of their lines. -/
theorem pairwise_line_le (text : List Char) (uri : Option String) (tree : ScopeTree) :
    (collect (Document.ofText text uri) tree).declarations.Pairwise fun d e => d.line ≤ e.line := by
  rw [declarations_collect, List.pairwise_flatMap]
  have hline {l : Line} {d : Declaration} (hd : d ∈ Collect.lineDecls tree l) : d.line = l.index :=
    (Collect.declares_lineDecls tree l).line_eq hd
  constructor
  · intro l _
    refine List.pairwise_of_forall_mem_list fun d hd e he => ?_
    rw [hline hd, hline he]
  · refine (Document.isNumbered_ofText text uri).pairwise_index.imp fun hlt d hd e he => ?_
    rw [hline hd, hline he]
    exact Nat.le_of_lt hlt

/-- In every document, each declaration but those of parameters and components has its name at its
column of its line, outside of comments and literals; and declarations are in the order of their
lines. -/
theorem declarations_point_at_names (text : List Char) (uri : Option String) (tree : ScopeTree) :
    let doc := Document.ofText text uri
    let table := collect doc tree
    table.declarations.Pairwise (fun d e => d.line ≤ e.line) ∧
      ∀ d ∈ table.declarations, d.form.keyword ∉ ["param", "component"] →
        ∃ l, doc.lines[d.line]? = some l ∧ d.WrittenOn l := by
  intro doc table
  refine ⟨pairwise_line_le text uri tree, fun d hd hkeyword => ?_⟩
  obtain ⟨l, hl, hdl, hline⟩ := exists_line_of_mem hd
  refine ⟨l, ?_, (Collect.namedOn_of_mem_lineDecls hdl).writtenOn hl hkeyword⟩
  obtain ⟨n, hn⟩ := List.mem_iff_getElem?.1 hl
  rw [hline, (Document.isNumbered_ofText text uri).index_eq hn, hn]

/-- A variable between a comment and a literal that look like declarations themselves. -/
theorem declarations_point_at_names_knotty :
    let doc := Document.ofText
      "class Box:\nconst/* \"let\" */ size = \"let s\" // let t".toList none
    let table := collect doc (ScopeTree.build doc)
    ∃ d ∈ table.declarations,
      (d.name, d.form.keyword, d.line, d.column) = ("size", "const", 1, 17) ∧
        ∃ l, doc.lines[d.line]? = some l ∧ d.WrittenOn l := by
  intro doc table
  have hmem : ("size", "const", 1, 17) ∈
      table.declarations.map fun d => (d.name, d.form.keyword, d.line, d.column) := by
    decide +kernel
  obtain ⟨d, hd, heq⟩ := List.mem_map.1 hmem
  have hkeyword : d.form.keyword = "const" := congrArg (·.2.1) heq
  exact ⟨d, hd, heq, (declarations_point_at_names _ none _).2 d hd (by rw [hkeyword]; decide)⟩

end DeclarationTable

end Polyloft
