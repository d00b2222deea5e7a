import Polyloft.Proofs.Declaration.Table

/-!
# Polyloft.Proofs.Declaration.Column

Where the names of a line stand. The pieces of a parameter list are placed one behind the other, and
a parameter stands inside its piece, so no two variables of a line share a column
(`eq_of_column_eq`); and all of them stand behind the name of the header, so that no variable has
the key of a declaration with a body (`key_ne_of_body`).
-/

namespace Polyloft

open Polyloft.Text

/-! ### Pieces of a text -/

/-- Blanks at the start are not part of the trimmed text. -/
theorem Text.leadingBlanks_add_length_strip_le (cs : List Char) :
    leadingBlanks cs + (strip cs).length ≤ cs.length := by
  have hsplit := congrArg List.length (List.takeWhile_append_dropWhile (p := isBlank) (l := cs))
  have hend := length_dropEndWhile_le isBlank (stripStart cs)
  rw [List.length_append] at hsplit
  rw [leadingBlanks, strip, stripEnd]
  rw [stripStart] at hend ⊢
  omega

theorem le_of_mem_placePieces {offset : Nat} {pieces : List (List Char)} {p : Nat × List Char}
    (h : p ∈ placePieces offset pieces) : offset ≤ p.1 := by
  induction pieces generalizing offset with
  | nil => simp [placePieces] at h
  | cons piece pieces ih =>
      rcases List.mem_cons.1 h with rfl | h
      · exact Nat.le_refl _
      · have := ih h
        omega

/-- A piece starts behind the end of every piece before it. -/
theorem pairwise_placePieces (offset : Nat) (pieces : List (List Char)) :
    (placePieces offset pieces).Pairwise fun p q => p.1 + p.2.length < q.1 := by
  induction pieces generalizing offset with
  | nil => exact .nil
  | cons piece pieces ih =>
      refine List.pairwise_cons.2 ⟨?_, ih _⟩
      intro q hq
      have := le_of_mem_placePieces hq
      dsimp only
      omega

/-! ### Parameters -/

namespace Parameter

theorem three_le_of_parseGrammar? {cs : List Char} {p : Parameter}
    (h : parseGrammar? cs = some p) (hvariadic : p.variadic = true) : 3 ≤ cs.length := by
  unfold parseGrammar? at h
  obtain ⟨name, -, h⟩ := Option.bind_eq_some_iff.1 h
  dsimp only at h
  split at h
  · obtain rfl := Option.some.inj h
    dsimp only at hvariadic
    split at hvariadic
    · simp
    · simp at hvariadic
  · simp at h

theorem three_le_of_recover? {cs : List Char} {p : Parameter} (h : recover? cs = some p)
    (hvariadic : p.variadic = true) : 3 ≤ cs.length := by
  unfold recover? at h
  dsimp only at h
  split at h
  · obtain rfl := Option.some.inj h
    have := (List.isPrefixOf_iff_prefix.1 hvariadic).length_le
    simpa using this
  · simp at h

/-- The name of a parameter stands inside its piece, behind the dots of a variadic one. -/
theorem column_of_parseAt? {column : Nat} {piece : List Char} {p : Parameter}
    (h : parseAt? column piece = some p) :
    column ≤ p.column.getD 0 ∧ p.column.getD 0 ≤ column + piece.length := by
  obtain ⟨q, hq, rfl⟩ := Option.map_eq_some_iff.1 h
  have hblanks := leadingBlanks_add_length_strip_le piece
  have hdots : (if q.variadic then 3 else 0) ≤ (strip piece).length := by
    split
    · rename_i hvariadic
      rcases Option.or_eq_some_iff.1 hq with hq | ⟨-, hq⟩
      · exact three_le_of_parseGrammar? hq hvariadic
      · exact three_le_of_recover? hq hvariadic
    · exact Nat.zero_le _
  dsimp only [Option.getD_some]
  omega

theorem le_column_of_mem_parseList {cs : List Char} {column : Nat} {p : Parameter}
    (h : p ∈ parseList cs column) : column ≤ p.column.getD 0 := by
  obtain ⟨piece, -, hp⟩ := List.mem_filterMap.1 h
  have := (column_of_parseAt? hp).1
  omega

/-- The parameters of a list stand one behind the other. -/
theorem pairwise_parseList (cs : List Char) (column : Nat) :
    (parseList cs column).Pairwise fun p q => p.column.getD 0 < q.column.getD 0 := by
  refine (pairwise_placePieces 0 _).filterMap _ ?_
  intro piece piece' hlt p hp q hq
  have hp := (column_of_parseAt? hp).2
  have hq := (column_of_parseAt? hq).1
  omega

end Parameter

/-! ### Headers -/

namespace Collect

theorem lt_column_of_mem_paramsAfter {line : Line} {column : Nat} {p : Parameter}
    (h : p ∈ (paramsAfter line column).1) : column < p.column.getD 0 := by
  unfold paramsAfter at h
  dsimp only at h
  split at h
  · simp at h
  · split at h
    · have := Parameter.le_column_of_mem_parseList h
      omega
    · have := Parameter.le_column_of_mem_parseList h
      omega

theorem pairwise_paramsAfter (line : Line) (column : Nat) :
    (paramsAfter line column).1.Pairwise fun p q => p.column.getD 0 < q.column.getD 0 := by
  unfold paramsAfter
  dsimp only
  split
  · exact .nil
  · split
    · exact Parameter.pairwise_parseList _ _
    · exact Parameter.pairwise_parseList _ _

theorem column_of_mem_parameterDecls {line : Line} {params : List Parameter}
    {form : DeclarationForm} {body : Nat} {owner : Option String} {d : Declaration}
    (h : d ∈ parameterDecls line params form body owner) :
    ∃ p ∈ params, d.column = p.column.getD 0 := by
  obtain ⟨p, hp, rfl⟩ := List.mem_map.1 h
  exact ⟨p, hp, rfl⟩

/-- No two parameters share a column. -/
theorem eq_of_mem_parameterDecls {line : Line} {params : List Parameter}
    {form : DeclarationForm} {body : Nat} {owner : Option String} {d e : Declaration}
    (hparams : params.Pairwise fun p q => p.column.getD 0 < q.column.getD 0)
    (hd : d ∈ parameterDecls line params form body owner)
    (he : e ∈ parameterDecls line params form body owner) (hcolumn : d.column = e.column) :
    d = e := by
  have hordered : (parameterDecls line params form body owner).Pairwise
      fun d e => d.column < e.column := List.pairwise_map.2 hparams
  obtain ⟨i, hi, rfl⟩ := List.mem_iff_getElem.1 hd
  obtain ⟨j, hj, rfl⟩ := List.mem_iff_getElem.1 he
  rcases Nat.lt_trichotomy i j with hlt | rfl | hlt
  · exact absurd hcolumn (Nat.ne_of_lt (List.pairwise_iff_getElem.1 hordered i j hi hj hlt))
  · rfl
  · exact absurd hcolumn.symm (Nat.ne_of_lt (List.pairwise_iff_getElem.1 hordered j i hj hi hlt))

/-- The variables of a function header are its parameters, which stand behind the name. -/
theorem mem_functionDecls_of_isVariable {tree : ScopeTree} {line : Line} {form : DeclarationForm}
    {name : Span} {d : Declaration} (hform : form.kind = .function)
    (h : d ∈ functionDecls tree line form name) (hvar : d.isVariable = true) :
    ∃ body, bodyOf tree line = some body ∧
      d ∈ parameterDecls line (paramsAfter line name.stop).1 .parameter body none := by
  unfold functionDecls at h
  dsimp only at h
  cases hbody : bodyOf tree line with
  | none =>
      rw [hbody] at h
      obtain rfl := List.mem_singleton.1 h
      simp [Declaration.isVariable, Declaration.kind, hform] at hvar
  | some body =>
      rw [hbody] at h
      rcases List.mem_cons.1 h with rfl | h
      · simp [Declaration.isVariable, Declaration.kind, hform] at hvar
      · exact ⟨body, rfl, h⟩

/-- The variables of a class header are the components of a record, which stand behind the name. -/
theorem mem_classDecls_of_isVariable {tree : ScopeTree} {line : Line} {word : String} {name : Span}
    {d : Declaration} (h : d ∈ classDecls tree line word name) (hvar : d.isVariable = true) :
    ∃ body, bodyOf tree line = some body ∧
      d ∈ parameterDecls line (paramsAfter line name.stop).1 .component body
        (some (spanText name line.masked)) := by
  have hclass := kind_classForm word
  unfold classDecls at h
  dsimp only at h
  cases hbody : bodyOf tree line with
  | none =>
      rw [hbody] at h
      obtain rfl := List.mem_singleton.1 h
      simp [Declaration.isVariable, Declaration.kind, hclass] at hvar
  | some body =>
      rw [hbody] at h
      rcases List.mem_cons.1 h with rfl | h
      · simp [Declaration.isVariable, Declaration.kind, hclass] at hvar
      · split at h
        · exact ⟨body, rfl, h⟩
        · simp [parameterDecls] at h

theorem head_functionDecls_of_body {tree : ScopeTree} {line : Line} {form : DeclarationForm}
    {name : Span} {d : Declaration} (h : d ∈ functionDecls tree line form name)
    (hbody : d.body ≠ none) : d.column = name.start := by
  unfold functionDecls at h
  dsimp only at h
  split at h
  · rw [List.mem_singleton.1 h]
  · rcases List.mem_cons.1 h with rfl | h
    · rfl
    · exact absurd (fields_of_mem_parameterDecls h).2.2.2.1 hbody

theorem head_classDecls_of_body {tree : ScopeTree} {line : Line} {word : String} {name : Span}
    {d : Declaration} (h : d ∈ classDecls tree line word name) (hbody : d.body ≠ none) :
    d.column = name.start := by
  unfold classDecls at h
  dsimp only at h
  split at h
  · rw [List.mem_singleton.1 h]
  · rcases List.mem_cons.1 h with rfl | h
    · rfl
    · exact absurd (fields_of_mem_parameterDecls h).2.2.2.1 hbody

theorem body_of_mem_caughtDecls {tree : ScopeTree} {line : Line} {name : Span}
    {type : Option Span} {d : Declaration} (h : d ∈ caughtDecls tree line name type) :
    d.body = none := by
  unfold caughtDecls at h
  dsimp only at h
  split at h
  · simp at h
  · rw [List.mem_singleton.1 h]

theorem body_of_mem_memberDecls {tree : ScopeTree} {line : Line} {d : Declaration}
    (h : d ∈ memberDecls tree line) : d.body = none := by
  unfold memberDecls at h
  split at h
  · simp at h
  · split at h
    · simp at h
    · split at h
      · obtain ⟨name, -, rfl⟩ := List.mem_map.1 h
        rfl
      · split at h
        · obtain ⟨name, -, rfl⟩ := List.mem_map.1 h
          rfl
        · simp at h

namespace Declares

variable {tree : ScopeTree} {line : Line} {ds : List Declaration} {d e : Declaration}

theorem kind_of_form {form : DeclarationForm} (hform : form = .function ∨ form = .constructor) :
    form.kind = .function := by
  rcases hform with rfl | rfl <;> rfl

/-- The variables of a line stand at different columns. -/
theorem eq_of_column_eq (h : Declares tree line ds) (hd : d ∈ ds) (he : e ∈ ds)
    (hvar : d.isVariable = true) (hvar' : e.isVariable = true) (hcolumn : d.column = e.column) :
    d = e := by
  cases h with
  | nothing => simp at hd
  | classLike word name _ =>
      obtain ⟨body, hbody, hd⟩ := mem_classDecls_of_isVariable hd hvar
      obtain ⟨body', hbody', he⟩ := mem_classDecls_of_isVariable he hvar'
      obtain rfl := Option.some.inj (hbody.symm.trans hbody')
      exact eq_of_mem_parameterDecls (pairwise_paramsAfter line name.stop) hd he hcolumn
  | function form hform name _ =>
      obtain ⟨body, hbody, hd⟩ := mem_functionDecls_of_isVariable (kind_of_form hform) hd hvar
      obtain ⟨body', hbody', he⟩ := mem_functionDecls_of_isVariable (kind_of_form hform) he hvar'
      obtain rfl := Option.some.inj (hbody.symm.trans hbody')
      exact eq_of_mem_parameterDecls (pairwise_paramsAfter line name.stop) hd he hcolumn
  | «variable» v => exact eq_of_length_le (by simp) hd he
  | loop l hl => exact eq_of_mem_loopDecls hl hd he hcolumn
  | caught name type => exact eq_of_length_le (length_caughtDecls_le ..) hd he
  | member => exact eq_of_length_le (length_memberDecls_le ..) hd he

/-- The declaration of a line that has a body stands before all variables of the line. -/
theorem column_lt_of_body (h : Declares tree line ds) (hd : d ∈ ds) (he : e ∈ ds)
    (hbody : d.body ≠ none) (hvar : e.isVariable = true) : d.column < e.column := by
  cases h with
  | nothing => simp at hd
  | classLike word name hname =>
      obtain ⟨_, -, he⟩ := mem_classDecls_of_isVariable he hvar
      obtain ⟨p, hp, hcolumn⟩ := column_of_mem_parameterDecls he
      have := lt_column_of_mem_paramsAfter hp
      rw [head_classDecls_of_body hd hbody, hcolumn]
      omega
  | function form hform name hname =>
      obtain ⟨_, -, he⟩ := mem_functionDecls_of_isVariable (kind_of_form hform) he hvar
      obtain ⟨p, hp, hcolumn⟩ := column_of_mem_parameterDecls he
      have := lt_column_of_mem_paramsAfter hp
      rw [head_functionDecls_of_body hd hbody, hcolumn]
      omega
  | «variable» v =>
      rw [List.mem_singleton.1 hd] at hbody
      exact absurd rfl hbody
  | loop l hl => exact absurd (mem_loopDecls hd).2.2.2.1 hbody
  | caught name type => exact absurd (body_of_mem_caughtDecls hd) hbody
  | member => exact absurd (body_of_mem_memberDecls hd) hbody

end Declares

end Collect

/-! ### The table -/

namespace DeclarationTable

variable {doc : Document} {tree : ScopeTree} {d e : Declaration} (hdoc : doc.IsNumbered)
include hdoc

/-- Variables that stand at one place are one variable. -/
theorem eq_of_place_eq (hd : d ∈ (collect doc tree).declarations)
    (he : e ∈ (collect doc tree).declarations) (hvar : d.isVariable = true)
    (hvar' : e.isVariable = true) (hline : d.line = e.line) (hcolumn : d.column = e.column) :
    d = e := by
  obtain ⟨line, hdl, hel⟩ := exists_line_of_line_eq hdoc hd he hline
  exact (Collect.declares_lineDecls tree line).eq_of_column_eq hdl hel hvar hvar' hcolumn

/-- No variable has the key of a declaration with a body. -/
theorem key_ne_of_body (hd : d ∈ (collect doc tree).declarations)
    (he : e ∈ (collect doc tree).declarations) (hbody : d.body ≠ none)
    (hvar : e.isVariable = true) : d.key ≠ e.key := by
  intro hkey
  obtain ⟨line, hdl, hel⟩ :=
    exists_line_of_line_eq hdoc hd he (congrArg DeclarationKey.line hkey)
  have hlt := (Collect.declares_lineDecls tree line).column_lt_of_body hdl hel hbody hvar
  exact Nat.ne_of_lt hlt (congrArg DeclarationKey.column hkey)

end DeclarationTable

end Polyloft
