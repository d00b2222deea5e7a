import Polyloft.Proofs.Declaration.Lineage
import Polyloft.Proofs.Scope.Builder
import Polyloft.Proofs.Ty.WellFormed

/-!
# Polyloft.Proofs.Declaration.Table

What the declaration table of a document holds. Each line adds its own declarations behind those of
the lines before it, whatever these are, so the table is the list of the lines' declarations
(`declarations_collect`) and a fact about the table is a fact about what one line can declare.

Declarations are told apart by name and place, and inference remembers types under these keys. Two
declarations of one key may still differ: a parameter may be named twice. They never differ in what
inference reads (`sourced_alike_of_key_eq`, `eq_of_body`).

## Proof shape

`Collect.Declares` says once what a line can declare, one constructor for each shape of a line. The
facts about single lines are case analyses on it.
-/

namespace Polyloft

open Polyloft.Text

/-! ### Reading positions -/

namespace Text.Cursor

theorem pos_le_skipBlanks (c : Cursor) : c.pos ≤ c.skipBlanks.pos := by
  simp only [skipBlanks, skipWhile, advance]
  omega

theorem pos_le_of_literal? {c c' : Cursor} {w : String} (h : c.literal? w = some c') :
    c.pos ≤ c'.pos := by
  unfold literal? at h
  split at h
  · obtain rfl := Option.some.inj h
    simp only [advance]
    omega
  · simp at h

theorem start_of_run? {c c' : Cursor} {first more : Char → Bool} {s : Span}
    (h : c.run? first more = some (s, c')) : s.start = c.pos ∧ c.pos < c'.pos := by
  unfold run? at h
  split at h
  · simp at h
  · split at h
    · obtain ⟨rfl, rfl⟩ := Prod.mk.inj (Option.some.inj h)
      refine ⟨rfl, ?_⟩
      simp only [advance]
      omega
    · simp at h

/-- A run ends behind its start. -/
theorem start_le_stop_of_run? {c c' : Cursor} {first more : Char → Bool} {s : Span}
    (h : c.run? first more = some (s, c')) : s.start ≤ s.stop := by
  unfold run? at h
  split at h
  · simp at h
  · split at h
    · obtain ⟨rfl, -⟩ := Prod.mk.inj (Option.some.inj h)
      exact Nat.le_add_right _ _
    · simp at h

end Text.Cursor

theorem Shape.start_le_stop_of_wordThenName? {words : List String} {cs : List Char}
    {found : String × Span × Cursor} (h : Shape.wordThenName? words cs = some found) :
    found.2.1.start ≤ found.2.1.stop := by
  obtain ⟨w, -, h⟩ := List.exists_of_findSome?_eq_some h
  obtain ⟨name, hname, rfl⟩ := Option.map_eq_some_iff.1 h
  obtain ⟨c, -, hname⟩ := Option.bind_eq_some_iff.1 hname
  exact Cursor.start_le_stop_of_run? hname

theorem Shape.start_le_stop_of_constructor? {cs : List Char} {found : Span × Cursor}
    (h : Shape.constructor? cs = some found) : found.1.start ≤ found.1.stop :=
  Cursor.start_le_stop_of_run? (Option.filter_eq_some_iff.1 h).1

/-- The second variable of a loop stands behind the first. -/
theorem Shape.start_lt_of_loop? {cs : List Char} {l : Shape.Loop} {second : Span}
    (h : Shape.loop? cs = some l) (hsecond : l.second = some second) :
    l.first.start < second.start := by
  obtain ⟨c, -, h⟩ := Option.bind_eq_some_iff.1 h
  obtain ⟨⟨first, behind⟩, hfirst, h⟩ := Option.bind_eq_some_iff.1 h
  obtain ⟨c', -, h⟩ := Option.bind_eq_some_iff.1 h
  obtain ⟨iterable, -, rfl⟩ := Option.map_eq_some_iff.1 h
  obtain ⟨⟨second', last⟩, hcomma, rfl⟩ := Option.map_eq_some_iff.1 hsecond
  obtain ⟨c'', hliteral, hname⟩ := Option.bind_eq_some_iff.1 hcomma
  have hfirst := Cursor.start_of_run? hfirst
  have hname := Cursor.start_of_run? hname
  have hliteral := Cursor.pos_le_of_literal? hliteral
  have hblanks := Cursor.pos_le_skipBlanks behind
  have hblanks' := Cursor.pos_le_skipBlanks c''
  dsimp only at hliteral hblanks ⊢
  omega

/-! ### What a line declares -/

namespace Collect

/-- What a line can declare. -/
inductive Declares (tree : ScopeTree) (line : Line) : List Declaration → Prop where
  | nothing : Declares tree line []
  | classLike (word : String) (name : Span) (hname : name.start ≤ name.stop) :
      Declares tree line (classDecls tree line word name)
  | function (form : DeclarationForm) (hform : form = .function ∨ form = .constructor)
      (name : Span) (hname : name.start ≤ name.stop) :
      Declares tree line (functionDecls tree line form name)
  | variable (v : Shape.Variable) : Declares tree line [variableDecl tree line v]
  | loop (l : Shape.Loop) (hl : Shape.loop? line.masked = some l) :
      Declares tree line (loopDecls tree line l)
  | caught (name : Span) (type : Option Span) : Declares tree line (caughtDecls tree line name type)
  | member : Declares tree line (memberDecls tree line)

/-- The declarations of one line. -/
def lineDecls (tree : ScopeTree) (line : Line) : List Declaration :=
  (addLine tree {} line).declarations

theorem exists_declares_addUnworded (tree : ScopeTree) (line : Line) :
    ∃ ds, Declares tree line ds ∧
      ∀ table, (addUnworded tree line table).declarations = table.declarations ++ ds := by
  unfold addUnworded
  cases hloop : Shape.loop? line.masked with
  | some l => exact ⟨_, .loop l hloop, fun _ => rfl⟩
  | none =>
      cases Shape.caught? line.masked with
      | some caught => exact ⟨_, .caught caught.1 caught.2, fun _ => rfl⟩
      | none =>
          cases hconstructor : Shape.constructor? line.masked with
          | none => exact ⟨_, .member, fun _ => rfl⟩
          | some found =>
              have hname := Shape.start_le_stop_of_constructor? hconstructor
              by_cases hcolon : (stripEnd line.masked).getLast? = some ':'
              · refine ⟨_, .function .constructor (.inr rfl) found.1 hname, ?_⟩
                intro table
                simp only [hcolon, if_true]
                rfl
              · refine ⟨_, .member, ?_⟩
                intro table
                simp only [hcolon, if_false]
                rfl

/-- A line adds the same declarations to every table. -/
theorem exists_declares_addLine (tree : ScopeTree) (line : Line) :
    ∃ ds, Declares tree line ds ∧
      ∀ table, (addLine tree table line).declarations = table.declarations ++ ds := by
  unfold addLine
  by_cases hblank : line.isBlank = true
  · refine ⟨[], .nothing, ?_⟩
    intro table
    simp [hblank]
  · simp only [hblank, Bool.false_eq_true, if_false]
    cases Shape.import? line.masked with
    | some found => exact ⟨[], .nothing, fun table => (List.append_nil _).symm⟩
    | none =>
        cases hclass : Shape.classLike? line.masked with
        | some found =>
            have hname := Shape.start_le_stop_of_wordThenName? hclass
            exact ⟨_, .classLike found.1 found.2.1 hname, fun _ => rfl⟩
        | none =>
            cases hfunction : Shape.function? line.masked with
            | some found =>
                obtain ⟨word, hword, rfl⟩ := Option.map_eq_some_iff.1 hfunction
                have hname := Shape.start_le_stop_of_wordThenName? hword
                exact ⟨_, .function .function (.inl rfl) word.2.1 hname, fun _ => rfl⟩
            | none =>
                cases Shape.variableLine? line.masked with
                | none => exact exists_declares_addUnworded tree line
                | some v =>
                    simp only [addVariable]
                    by_cases hmore : v.more.isEmpty = true
                    · refine ⟨_, .variable v, ?_⟩
                      intro table
                      simp only [hmore, if_true]
                      rfl
                    · -- Several words for the mutability are reported and declare nothing.
                      refine ⟨[], .nothing, ?_⟩
                      intro table
                      simp [hmore]

theorem declares_lineDecls (tree : ScopeTree) (line : Line) :
    Declares tree line (lineDecls tree line) := by
  obtain ⟨ds, hds, hadd⟩ := exists_declares_addLine tree line
  rw [lineDecls, hadd, List.nil_append]
  exact hds

theorem declarations_addLine (tree : ScopeTree) (table : DeclarationTable) (line : Line) :
    (addLine tree table line).declarations = table.declarations ++ lineDecls tree line := by
  obtain ⟨ds, -, hadd⟩ := exists_declares_addLine tree line
  rw [lineDecls, hadd, hadd, List.nil_append]

theorem declarations_foldl_addLine (tree : ScopeTree) (lines : List Line)
    (table : DeclarationTable) :
    (lines.foldl (addLine tree) table).declarations =
      table.declarations ++ lines.flatMap (lineDecls tree) := by
  induction lines generalizing table with
  | nil => simp
  | cons line lines ih => simp [ih, declarations_addLine]

/-! ### The fields of a declaration -/

theorem wellFormed_of_mem_paramsAfter {line : Line} {column : Nat} {p : Parameter}
    (h : p ∈ (paramsAfter line column).1) : p.type.WellFormed := by
  unfold paramsAfter at h
  dsimp only at h
  split at h
  · simp at h
  · split at h
    · exact Parameter.wellFormed_of_mem_parseList h
    · exact Parameter.wellFormed_of_mem_parseList h

/-- The parameters of a header are variables without initializer and body, all of one form and
owner. -/
theorem fields_of_mem_parameterDecls {line : Line} {params : List Parameter}
    {form : DeclarationForm} {body : Nat} {owner : Option String} {d : Declaration}
    (h : d ∈ parameterDecls line params form body owner) :
    d.form = form ∧ d.line = line.index ∧ d.initializer = none ∧ d.body = none ∧
      d.owner = owner ∧ ∃ p ∈ params, ∀ t, d.declaredType = some t → t = p.type := by
  obtain ⟨p, hp, rfl⟩ := List.mem_map.1 h
  refine ⟨rfl, rfl, rfl, rfl, rfl, p, hp, ?_⟩
  intro t ht
  dsimp only at ht
  split at ht
  · exact (Option.some.inj ht).symm
  · simp at ht

/-- The declarations of a function header: the function, then its parameters. -/
theorem mem_functionDecls {tree : ScopeTree} {line : Line} {form : DeclarationForm} {name : Span}
    {d : Declaration} (h : d ∈ functionDecls tree line form name) :
    (functionDecls tree line form name).head? = some d ∧ d.form = form ∧ d.line = line.index ∧
        d.declaredType = none ∨
      ∃ body, d ∈ parameterDecls line (paramsAfter line name.stop).1 .parameter body none := by
  unfold functionDecls at h ⊢
  dsimp only at h ⊢
  cases hbody : bodyOf tree line with
  | none =>
      rw [hbody] at h
      obtain rfl := List.mem_singleton.1 h
      exact .inl ⟨rfl, rfl, rfl, rfl⟩
  | some body =>
      rw [hbody] at h
      rcases List.mem_cons.1 h with rfl | h
      · exact .inl ⟨rfl, rfl, rfl, rfl⟩
      · exact .inr ⟨body, h⟩

theorem kind_classForm (word : String) : (classForm word).kind = .classLike := by
  unfold classForm
  split <;> rfl

/-- The declarations of a class header: the class-like, then its components. -/
theorem mem_classDecls {tree : ScopeTree} {line : Line} {word : String} {name : Span}
    {d : Declaration} (h : d ∈ classDecls tree line word name) :
    (classDecls tree line word name).head? = some d ∧ d.kind = .classLike ∧ d.line = line.index ∧
        d.declaredType = none ∨
      ∃ params body owner, (∀ p ∈ params, p.type.WellFormed) ∧
        owner = some (spanText name line.masked) ∧
        d ∈ parameterDecls line params .component body owner := by
  unfold classDecls at h ⊢
  dsimp only at h ⊢
  cases hbody : bodyOf tree line with
  | none =>
      rw [hbody] at h
      obtain rfl := List.mem_singleton.1 h
      exact .inl ⟨rfl, kind_classForm word, rfl, rfl⟩
  | some body =>
      rw [hbody] at h
      rcases List.mem_cons.1 h with rfl | h
      · exact .inl ⟨rfl, kind_classForm word, rfl, rfl⟩
      · refine .inr ⟨_, body, _, ?_, rfl, h⟩
        intro p hp
        split at hp
        · exact wellFormed_of_mem_paramsAfter hp
        · simp at hp

/-- The declarations of a loop header: its first variable, then its second one. -/
theorem mem_loopDecls {tree : ScopeTree} {line : Line} {l : Shape.Loop} {d : Declaration}
    (h : d ∈ loopDecls tree line l) :
    d.form = .loopVariable ∧ d.line = line.index ∧ d.declaredType = none ∧ d.body = none ∧
      ((loopDecls tree line l).head? = some d ∧ d.column = l.first.start ∨
        ∃ second, l.second = some second ∧ (loopDecls tree line l)[1]? = some d ∧
          d.column = second.start) := by
  unfold loopDecls at h ⊢
  cases hbody : bodyOf tree line with
  | none =>
      rw [hbody] at h
      simp at h
  | some body =>
      rw [hbody] at h
      dsimp only at h ⊢
      rcases List.mem_cons.1 h with rfl | h
      · exact ⟨rfl, rfl, rfl, rfl, .inl ⟨rfl, rfl⟩⟩
      · cases hsecond : l.second with
        | none =>
            rw [hsecond] at h
            simp at h
        | some second =>
            rw [hsecond] at h
            obtain rfl := List.mem_singleton.1 h
            exact ⟨rfl, rfl, rfl, rfl, .inr ⟨second, rfl, rfl, rfl⟩⟩

theorem length_map_toList_le {α β : Type} (f : α → β) (o : Option α) :
    (o.toList.map f).length ≤ 1 := by
  cases o <;> simp

/-- A catch branch declares at most one variable. -/
theorem length_caughtDecls_le (tree : ScopeTree) (line : Line) (name : Span)
    (type : Option Span) : (caughtDecls tree line name type).length ≤ 1 := by
  unfold caughtDecls
  dsimp only
  split <;> simp

theorem fields_of_mem_caughtDecls {tree : ScopeTree} {line : Line} {name : Span}
    {type : Option Span} {d : Declaration} (h : d ∈ caughtDecls tree line name type) :
    d.line = line.index ∧ ∀ t, d.declaredType = some t → ∃ text, t = Ty.ofString text := by
  unfold caughtDecls at h
  dsimp only at h
  split at h
  · simp at h
  · obtain rfl := List.mem_singleton.1 h
    refine ⟨rfl, ?_⟩
    intro t ht
    obtain ⟨text, -, rfl⟩ := Option.map_eq_some_iff.1 ht
    exact ⟨text, rfl⟩

/-- A line that is read as a member declares at most one name. -/
theorem length_memberDecls_le (tree : ScopeTree) (line : Line) :
    (memberDecls tree line).length ≤ 1 := by
  unfold memberDecls
  split
  · simp
  · split
    · simp
    · split
      · exact length_map_toList_le _ _
      · split
        · exact length_map_toList_le _ _
        · simp

theorem fields_of_mem_memberDecls {tree : ScopeTree} {line : Line} {d : Declaration}
    (h : d ∈ memberDecls tree line) : d.line = line.index ∧ d.declaredType = none := by
  unfold memberDecls at h
  split at h
  · simp at h
  · split at h
    · simp at h
    · split at h
      · obtain ⟨name, -, rfl⟩ := List.mem_map.1 h
        exact ⟨rfl, rfl⟩
      · split at h
        · obtain ⟨name, -, rfl⟩ := List.mem_map.1 h
          exact ⟨rfl, rfl⟩
        · simp at h

namespace Declares

variable {tree : ScopeTree} {line : Line} {ds : List Declaration} {d e : Declaration}

/-- A declaration knows the line that declares it. -/
theorem line_eq (h : Declares tree line ds) (hd : d ∈ ds) : d.line = line.index := by
  cases h with
  | nothing => simp at hd
  | classLike word name _ =>
      rcases mem_classDecls hd with ⟨-, -, hline, -⟩ | ⟨_, _, _, -, -, hd⟩
      · exact hline
      · exact (fields_of_mem_parameterDecls hd).2.1
  | function form hform name _ =>
      rcases mem_functionDecls hd with ⟨-, -, hline, -⟩ | ⟨_, hd⟩
      · exact hline
      · exact (fields_of_mem_parameterDecls hd).2.1
  | «variable» v =>
      rw [List.mem_singleton.1 hd]
      rfl
  | loop l hl => exact (mem_loopDecls hd).2.1
  | caught name type => exact (fields_of_mem_caughtDecls hd).1
  | member => exact (fields_of_mem_memberDecls hd).1

/-- Written types are well formed. -/
theorem wellFormed (h : Declares tree line ds) (hd : d ∈ ds) {t : Ty}
    (ht : d.declaredType = some t) : t.WellFormed := by
  cases h with
  | nothing => simp at hd
  | classLike word name _ =>
      rcases mem_classDecls hd with ⟨-, -, -, hnone⟩ | ⟨params, _, _, hparams, -, hd⟩
      · rw [hnone] at ht
        simp at ht
      · obtain ⟨-, -, -, -, -, p, hp, htype⟩ := fields_of_mem_parameterDecls hd
        rw [htype t ht]
        exact hparams p hp
  | function form hform name _ =>
      rcases mem_functionDecls hd with ⟨-, -, -, hnone⟩ | ⟨_, hd⟩
      · rw [hnone] at ht
        simp at ht
      · obtain ⟨-, -, -, -, -, p, hp, htype⟩ := fields_of_mem_parameterDecls hd
        rw [htype t ht]
        exact wellFormed_of_mem_paramsAfter hp
  | «variable» v =>
      obtain rfl := List.mem_singleton.1 hd
      obtain ⟨text, -, rfl⟩ := Option.map_eq_some_iff.1 ht
      exact .ofString text
  | loop l hl =>
      rw [(mem_loopDecls hd).2.2.1] at ht
      simp at ht
  | caught name type =>
      obtain ⟨text, rfl⟩ := (fields_of_mem_caughtDecls hd).2 t ht
      exact .ofString text
  | member =>
      rw [(fields_of_mem_memberDecls hd).2] at ht
      simp at ht

theorem eq_of_length_le (hlength : ds.length ≤ 1) (hd : d ∈ ds) (he : e ∈ ds) : d = e := by
  cases ds with
  | nil => simp at hd
  | cons f rest =>
      have hrest : rest = [] := by simpa using hlength
      subst hrest
      rw [List.mem_singleton.1 hd, List.mem_singleton.1 he]

/-- At most one declaration of a line has a body. -/
theorem eq_of_body (h : Declares tree line ds) (hd : d ∈ ds) (he : e ∈ ds) (hbody : d.body ≠ none)
    (hbody' : e.body ≠ none) : d = e := by
  cases h with
  | nothing => simp at hd
  | classLike word name _ =>
      rcases mem_classDecls hd with ⟨hhead, -⟩ | ⟨_, _, _, -, -, hd⟩
      · rcases mem_classDecls he with ⟨hhead', -⟩ | ⟨_, _, _, -, -, he⟩
        · exact Option.some.inj (hhead.symm.trans hhead')
        · exact absurd (fields_of_mem_parameterDecls he).2.2.2.1 hbody'
      · exact absurd (fields_of_mem_parameterDecls hd).2.2.2.1 hbody
  | function form hform name _ =>
      rcases mem_functionDecls hd with ⟨hhead, -⟩ | ⟨_, hd⟩
      · rcases mem_functionDecls he with ⟨hhead', -⟩ | ⟨_, he⟩
        · exact Option.some.inj (hhead.symm.trans hhead')
        · exact absurd (fields_of_mem_parameterDecls he).2.2.2.1 hbody'
      · exact absurd (fields_of_mem_parameterDecls hd).2.2.2.1 hbody
  | «variable» v => exact eq_of_length_le (by simp) hd he
  | loop l hl => exact absurd (mem_loopDecls hd).2.2.2.1 hbody
  | caught name type => exact eq_of_length_le (length_caughtDecls_le ..) hd he
  | member => exact eq_of_length_le (length_memberDecls_le ..) hd he

/-- The two variables of a loop stand at different columns. -/
theorem eq_of_mem_loopDecls {l : Shape.Loop} (hl : Shape.loop? line.masked = some l)
    (hd : d ∈ loopDecls tree line l) (he : e ∈ loopDecls tree line l)
    (hcolumn : d.column = e.column) : d = e := by
  obtain ⟨-, -, -, -, hd⟩ := mem_loopDecls hd
  obtain ⟨-, -, -, -, he⟩ := mem_loopDecls he
  rcases hd with ⟨hhead, hfirst⟩ | ⟨second, hsecond, hget, hcol⟩
  · rcases he with ⟨hhead', -⟩ | ⟨second, hsecond, -, hcol⟩
    · exact Option.some.inj (hhead.symm.trans hhead')
    · have := Shape.start_lt_of_loop? hl hsecond
      omega
  · rcases he with ⟨-, hfirst⟩ | ⟨second', hsecond', hget', -⟩
    · have := Shape.start_lt_of_loop? hl hsecond
      omega
    · exact Option.some.inj (hget.symm.trans hget')

end Declares

end Collect

/-- Two declarations that inference cannot tell apart as variables: it reads their form, their
owner, their initializer and their line. -/
def Declaration.SourcedAlike (d e : Declaration) : Prop :=
  d.form = e.form ∧ d.owner = e.owner ∧ d.initializer = e.initializer ∧ d.line = e.line

/-- Inference does not tell the parameters of a line apart. -/
theorem Collect.sourcedAlike_parameterDecls {line : Line} {params params' : List Parameter}
    {form : DeclarationForm} {body body' : Nat} {owner : Option String} {d e : Declaration}
    (hd : d ∈ parameterDecls line params form body owner)
    (he : e ∈ parameterDecls line params' form body' owner) : d.SourcedAlike e := by
  obtain ⟨hform, hline, hinit, -, howner, -⟩ := fields_of_mem_parameterDecls hd
  obtain ⟨hform', hline', hinit', -, howner', -⟩ := fields_of_mem_parameterDecls he
  exact ⟨hform.trans hform'.symm, howner.trans howner'.symm, hinit.trans hinit'.symm,
    hline.trans hline'.symm⟩

/-- Variables of one line with one name and place are sourced alike. -/
theorem Collect.Declares.sourcedAlike {tree : ScopeTree} {line : Line} {ds : List Declaration}
    {d e : Declaration} (h : Declares tree line ds) (hd : d ∈ ds) (he : e ∈ ds)
    (hkey : d.key = e.key) (hvar : d.isVariable = true) (hvar' : e.isVariable = true) :
    d.SourcedAlike e := by
  have hkind : d.form.kind = .variable := by
    simpa [Declaration.isVariable, Declaration.kind] using hvar
  have hkind' : e.form.kind = .variable := by
    simpa [Declaration.isVariable, Declaration.kind] using hvar'
  have alike_of_eq (heq : d = e) : d.SourcedAlike e := by
    subst heq
    exact ⟨rfl, rfl, rfl, rfl⟩
  cases h with
  | nothing => simp at hd
  | classLike word name _ =>
      -- The class itself is no variable, so both are components of a record.
      rcases mem_classDecls hd with ⟨-, hclass, -⟩ | ⟨_, _, _, -, rfl, hd⟩
      · rw [Declaration.kind, hkind] at hclass
        simp at hclass
      · rcases mem_classDecls he with ⟨-, hclass, -⟩ | ⟨_, _, _, -, rfl, he⟩
        · rw [Declaration.kind, hkind'] at hclass
          simp at hclass
        · exact sourcedAlike_parameterDecls hd he
  | function form hform name _ =>
      have hfunction : form.kind = .function := by
        rcases hform with rfl | rfl <;> rfl
      rcases mem_functionDecls hd with ⟨-, rfl, -⟩ | ⟨_, hd⟩
      · rw [hkind] at hfunction
        simp at hfunction
      · rcases mem_functionDecls he with ⟨-, rfl, -⟩ | ⟨_, he⟩
        · rw [hkind'] at hfunction
          simp at hfunction
        · exact sourcedAlike_parameterDecls hd he
  | «variable» v => exact alike_of_eq (eq_of_length_le (by simp) hd he)
  | loop l hl =>
      exact alike_of_eq (eq_of_mem_loopDecls hl hd he (congrArg DeclarationKey.column hkey))
  | caught name type => exact alike_of_eq (eq_of_length_le (length_caughtDecls_le ..) hd he)
  | member => exact alike_of_eq (eq_of_length_le (length_memberDecls_le ..) hd he)

/-! ### The table -/

namespace DeclarationTable

/-- The declarations of a document are those of its lines. -/
theorem declarations_collect (doc : Document) (tree : ScopeTree) :
    (collect doc tree).declarations = doc.lines.flatMap (Collect.lineDecls tree) := by
  rw [collect, Collect.declarations_foldl_addLine]
  rfl

theorem exists_line_of_mem {doc : Document} {tree : ScopeTree} {d : Declaration}
    (h : d ∈ (collect doc tree).declarations) :
    ∃ line ∈ doc.lines, d ∈ Collect.lineDecls tree line ∧ d.line = line.index := by
  rw [declarations_collect] at h
  obtain ⟨line, hline, hd⟩ := List.mem_flatMap.1 h
  exact ⟨line, hline, hd, (Collect.declares_lineDecls tree line).line_eq hd⟩

/-- Written types are well formed. -/
theorem wellFormed_declaredType {doc : Document} {tree : ScopeTree} {d : Declaration}
    (h : d ∈ (collect doc tree).declarations) {t : Ty} (ht : d.declaredType = some t) :
    t.WellFormed := by
  obtain ⟨line, -, hd, -⟩ := exists_line_of_mem h
  exact (Collect.declares_lineDecls tree line).wellFormed hd ht

section

variable {doc : Document} {tree : ScopeTree} {d e : Declaration} (hdoc : doc.IsNumbered)
include hdoc

theorem line_lt_size (hd : d ∈ (collect doc tree).declarations) : d.line < doc.size := by
  obtain ⟨line, hline, -, heq⟩ := exists_line_of_mem hd
  obtain ⟨n, hn⟩ := List.mem_iff_getElem?.1 hline
  rw [heq, hdoc.index_eq hn]
  exact (List.getElem?_eq_some_iff.1 hn).1

/-- Two declarations on one line come from the same line. -/
theorem exists_line_of_line_eq (hd : d ∈ (collect doc tree).declarations)
    (he : e ∈ (collect doc tree).declarations) (hline : d.line = e.line) :
    ∃ line, d ∈ Collect.lineDecls tree line ∧ e ∈ Collect.lineDecls tree line := by
  obtain ⟨l, hl, hdl, hdline⟩ := exists_line_of_mem hd
  obtain ⟨l', hl', hel', heline⟩ := exists_line_of_mem he
  obtain rfl : l = l' := hdoc.eq_of_index hl hl' (by rw [← hdline, ← heline, hline])
  exact ⟨l, hdl, hel'⟩

/-- Variables with the same key are sourced alike. -/
theorem sourcedAlike_of_key_eq (hd : d ∈ (collect doc tree).declarations)
    (he : e ∈ (collect doc tree).declarations) (hkey : d.key = e.key)
    (hvar : d.isVariable = true) (hvar' : e.isVariable = true) : d.SourcedAlike e := by
  obtain ⟨line, hdl, hel⟩ :=
    exists_line_of_line_eq hdoc hd he (congrArg DeclarationKey.line hkey)
  exact (Collect.declares_lineDecls tree line).sourcedAlike hdl hel hkey hvar hvar'

/-- A declaration with a body is determined by its key. -/
theorem eq_of_body (hd : d ∈ (collect doc tree).declarations)
    (he : e ∈ (collect doc tree).declarations) (hkey : d.key = e.key) (hbody : d.body ≠ none)
    (hbody' : e.body ≠ none) : d = e := by
  obtain ⟨line, hdl, hel⟩ :=
    exists_line_of_line_eq hdoc hd he (congrArg DeclarationKey.line hkey)
  exact (Collect.declares_lineDecls tree line).eq_of_body hdl hel hbody hbody'

end

/-- What inference relies on: written types are well formed, and what it reads of a declaration is
determined by the key under which it remembers the type. -/
structure Consistent (table : DeclarationTable) : Prop where
  wellFormed : ∀ {d : Declaration} {t : Ty}, d ∈ table.declarations → d.declaredType = some t →
    t.WellFormed
  sourcedAlike : ∀ {d e : Declaration}, d ∈ table.declarations → e ∈ table.declarations →
    d.key = e.key → d.isVariable = true → e.isVariable = true → d.SourcedAlike e
  eq_of_body : ∀ {d e : Declaration}, d ∈ table.declarations → e ∈ table.declarations →
    d.key = e.key → d.body ≠ none → e.body ≠ none → d = e

/-- The table of a document is consistent. -/
theorem consistent_collect {doc : Document} (hdoc : doc.IsNumbered) (tree : ScopeTree) :
    (collect doc tree).Consistent where
  wellFormed := fun hd ht => wellFormed_declaredType hd ht
  sourcedAlike := sourcedAlike_of_key_eq hdoc
  eq_of_body := eq_of_body hdoc

variable {table : DeclarationTable} {d : Declaration}

/-! ### First declarations of names -/

/-- One more declaration: it is listed if it counts and its name is not listed yet. -/
def listed (p : Declaration → Bool) (found : List Declaration) (d : Declaration) :
    List Declaration :=
  if found.any (·.name == d.name) || !p d then found else found ++ [d]

theorem nodup_listed {found : List Declaration} (h : (found.map Declaration.name).Nodup)
    (p : Declaration → Bool) (d : Declaration) :
    ((listed p found d).map Declaration.name).Nodup := by
  rw [listed]
  split
  · exact h
  · rename_i hnew
    rw [Bool.or_eq_true, not_or, List.any_eq_true] at hnew
    rw [List.map_append, List.map_singleton, List.nodup_append]
    refine ⟨h, by simp, fun x hx y hy heq => hnew.1 ?_⟩
    obtain ⟨e, he, rfl⟩ := List.mem_map.1 hx
    rw [List.mem_singleton] at hy
    exact ⟨e, he, beq_iff_eq.2 (heq.trans hy)⟩

theorem find?_listed (p : Declaration → Bool) (name : String) (found : List Declaration)
    (d : Declaration) :
    (listed p found d).find? (·.name == name) =
      (found.find? (·.name == name)).or (if d.name == name && p d then some d else none) := by
  rw [listed]
  by_cases hname : d.name = name
  · cases hcounts : p d
    · simp
    · subst hname
      rw [beq_self_eq_true, Bool.true_and, if_pos rfl]
      cases hany : found.any (·.name == d.name)
      · simp
      · -- The name is listed already.
        obtain ⟨e, he⟩ := Option.isSome_iff_exists.1
          (List.find?_isSome.2 (List.any_eq_true.1 hany))
        simp [he]
  · have hno : (d.name == name) = false := beq_eq_false_iff_ne.2 hname
    rw [hno, Bool.false_and, if_neg Bool.false_ne_true, Option.or_none]
    split
    · rfl
    · rw [List.find?_append, List.find?_singleton, hno]
      exact Option.or_none

/-- Of each name the first declaration that counts is listed. -/
theorem find?_foldl_listed (p : Declaration → Bool) (name : String) (ds found : List Declaration) :
    (ds.foldl (listed p) found).find? (·.name == name) =
      (found.find? (·.name == name)).or (ds.find? fun d => d.name == name && p d) := by
  induction ds generalizing found with
  | nil => exact Option.or_none.symm
  | cons d ds ih =>
      rw [List.foldl_cons, ih, find?_listed, Option.or_assoc, List.find?_cons]
      cases d.name == name && p d <;> rfl

theorem firstWith_eq (table : DeclarationTable) (m : Mutability) :
    table.firstWith m = table.declarations.foldl (listed (·.form.mutability? == some m)) [] := by
  refine congrArg (List.foldl · [] table.declarations) (funext fun found => funext fun d => ?_)
  rw [listed, Bool.or_comm, bne]

/-- A list of first declarations holds the names of all declarations that count. -/
theorem exists_mem_firstWith_iff {m : Mutability} {name : String} :
    (∃ d ∈ table.firstWith m, d.name = name) ↔
      ∃ d ∈ table.declarations, d.name = name ∧ d.form.mutability? = some m := by
  have hfind := find?_foldl_listed (·.form.mutability? == some m) name table.declarations []
  rw [← firstWith_eq, List.find?_nil, Option.none_or] at hfind
  have hsome := congrArg Option.isSome hfind
  rw [Bool.eq_iff_iff, List.find?_isSome, List.find?_isSome] at hsome
  simpa only [Bool.and_eq_true, beq_iff_eq] using hsome

/-- The lists of constants hold every name that is declared as a constant. -/
theorem hasConstant_iff {name : String} : table.hasConstant name = true ↔
    ∃ d ∈ table.declarations, d.name = name ∧ d.isConstant = true := by
  have hconstant (d : Declaration) : d.isConstant = true ↔
      d.form.mutability? = some .const ∨ d.form.mutability? = some .final := by
    rw [Declaration.isConstant]
    cases d.form.mutability? with
    | none => simp
    | some m => cases m <;> simp [Mutability.isConstant]
  simp only [hasConstant, Bool.or_eq_true, List.any_eq_true, beq_iff_eq, exists_mem_firstWith_iff,
    hconstant, ← exists_or, ← and_or_left]

/-! ### Look-ups -/

theorem mem_of_chosen {name : String} {line : Int} {ds : List Declaration}
    (h : chosen name line ds = some d) : d ∈ ds ∧ d.name = name := by
  -- Whatever was found so far is one of the declarations passed over.
  refine List.foldlRecOn (motive := fun found => ∀ d, found = some d → d ∈ ds ∧ d.name = name) ds _
    (by simp) ?_ d h
  intro found hfound e he d hd
  split at hd
  · rename_i hmeant
    obtain rfl := Option.some.inj hd
    simp only [Bool.and_eq_true, beq_iff_eq] at hmeant
    exact ⟨he, hmeant.1.1⟩
  · exact hfound d hd

theorem mem_of_visible? {name : String} {line : Int} {tree : ScopeTree}
    (h : table.visible? name line tree = some d) : d ∈ table.declarations := by
  obtain ⟨f, -, hchosen⟩ := List.exists_of_findSome?_eq_some h
  exact (List.mem_filter.1 (mem_of_chosen hchosen).1).1

theorem name_of_visible? {name : String} {line : Int} {tree : ScopeTree}
    (h : table.visible? name line tree = some d) : d.name = name := by
  obtain ⟨f, -, hchosen⟩ := List.exists_of_findSome?_eq_some h
  exact (mem_of_chosen hchosen).2

theorem mem_of_ownMember? {owner : Declaration} {name : String}
    (h : table.ownMember? owner name = some (.declared d)) : d ∈ table.declarations := by
  unfold ownMember? at h
  split at h
  · rename_i found hfound
    obtain rfl := MemberSource.declared.inj (Option.some.inj h)
    exact List.mem_of_find?_eq_some (Option.filter_eq_some_iff.1 hfound).1
  · repeat' split at h
    all_goals simp at h

theorem mem_of_memberSource? {owner name : String}
    (h : table.memberSource? owner name = some (.declared d)) : d ∈ table.declarations := by
  rw [memberSource?_eq_findSome?] at h
  obtain ⟨c, -, hown⟩ := List.exists_of_findSome?_eq_some h
  exact mem_of_ownMember? hown

theorem wellFormed_of_memberSource? {owner name : String} {t : Ty}
    (h : table.memberSource? owner name = some (.builtin t)) : t.WellFormed := by
  rw [memberSource?_eq_findSome?] at h
  obtain ⟨c, -, hown⟩ := List.exists_of_findSome?_eq_some h
  unfold ownMember? at hown
  repeat' split at hown
  all_goals simp at hown
  all_goals
    subst hown
    exact .simple _

end DeclarationTable

end Polyloft
