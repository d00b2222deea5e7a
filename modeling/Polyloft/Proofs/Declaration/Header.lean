import Polyloft.Proofs.Declaration.Prefix
import Polyloft.Proofs.Scope.Origin

/-!
# Polyloft.Proofs.Declaration.Header

Scopes and declarations agree on headers. The scope tree recognises the header of a block by the
tokens of a line, the declaration table by shapes that are read from its text. On lines of printable
ASCII characters whose annotations and modifiers stand in order, the two recognise the same headers
and read the same names: a named block has exactly one declaration, which points to it, and a
declaration with a body points to a block of its own kind and name.

## Proof shape

`Heads` says by the tokens behind the prefix what a header declares. Both sides are compared with
it: `opening?` in `heads_of_opening?` and `opening?_of_heads`, the shapes of a line in
`Headed.heads_of_mem_lineDecls` and `Headed.introduces_lineDecls`.
-/

namespace Polyloft

open Polyloft.Text

/-! ### What a header declares -/

/-- The words of class-likes. -/
def classWords : List String :=
  ["class", "enum", "record", "interface"]

/-- The words for constructs that are declared with a body. -/
def headerWords : List String :=
  ["def", "constructor", "class", "enum", "record", "interface"]

/-- The tokens behind the prefix of a line declare the name `u` in the given form. -/
inductive Heads (first : Token) (rest : List Token) : DeclarationForm → Token → Prop where
  | function {u : Token} {us : List Token} (hfirst : first.isKeyword "def" = true)
      (hrest : rest = u :: us) (hu : u.isName = true) : Heads first rest .function u
  | classLike {w : String} {u : Token} {us : List Token}
      (hw : w ∈ classWords) (hfirst : first.isKeyword w = true) (hrest : rest = u :: us)
      (hu : u.isName = true) : Heads first rest (Collect.classForm w) u
  | constructor (hfirst : first.startsUpper = true)
      (hrest : rest.head?.any (·.isSymbol "(") = true)
      (hcolon : (rest.getLastD first).isSymbol ":" = true) : Heads first rest .constructor first

/-- The declared name is a word of the line. -/
theorem Heads.mem_isName {first u : Token} {rest : List Token} {form : DeclarationForm}
    (h : Heads first rest form u) (hfirst : first.isName = true) :
    u ∈ first :: rest ∧ u.isName = true := by
  cases h with
  | function _ hrest hu => exact ⟨by simp [hrest], hu⟩
  | classLike _ _ hrest hu => exact ⟨by simp [hrest], hu⟩
  | constructor => exact ⟨List.mem_cons_self .., hfirst⟩

/-! ### Scopes -/

/-- The words of class-likes are those of named constructs. -/
theorem isNamed_iff_mem_classWords {w : String} {c : Construct} (h : leadingConstruct? w = some c) :
    c.isNamed = true ↔ w ∈ classWords := by
  unfold leadingConstruct? at h
  split at h <;> cases h <;> decide

theorem keyword_of_leadingConstruct? {w : String} {c : Construct}
    (h : leadingConstruct? w = some c) :
    c.keyword = w ∧ w ≠ "def" := by
  unfold leadingConstruct? at h
  split at h <;> cases h <;> exact ⟨rfl, by decide⟩

theorem keyword_classForm {w : String} (hw : w ∈ classWords) :
    (Collect.classForm w).keyword = w := by
  simp only [classWords, List.mem_cons, List.not_mem_nil, or_false] at hw
  rcases hw with rfl | rfl | rfl | rfl <;> rfl

section

variable {tokens rest : List Token} {first u : Token} {form : DeclarationForm} {o : Opening}

theorem opening_of_trailingOpening? {name : String} (h : trailingOpening? first rest = some o)
    (hname : o.name = some name) :
    Heads first rest .constructor first ∧ first.kind = .identifier ∧ o.construct = .constructor ∧
      first.text = name := by
  rw [trailingOpening?] at h
  split at h
  · rename_i hcond
    obtain rfl := Option.some.inj h
    simp only [Bool.and_eq_true, beq_iff_eq] at hcond
    obtain ⟨⟨⟨hkind, hupper⟩, hparen⟩, hcolon⟩ := hcond
    exact ⟨.constructor hupper hparen hcolon, hkind, rfl, Option.some.inj hname⟩
  · split at h
    · obtain rfl := Option.some.inj h
      simp at hname
    · simp at h

theorem exists_cons_of_identifierText? {name : String}
    (h : rest.head?.bind identifierText? = some name) :
    ∃ u us, rest = u :: us ∧ u.isName = true ∧ u.text = name := by
  obtain ⟨u, hu, htext⟩ := Option.bind_eq_some_iff.1 h
  obtain ⟨us, rfl⟩ := List.head?_eq_some_iff.1 hu
  rw [identifierText?] at htext
  split at htext
  · rename_i hkind
    exact ⟨u, us, rfl, by simp [Token.isName, hkind], Option.some.inj htext⟩
  · simp at htext

variable (htokens : tokens.dropWhile Token.isDeclarationPrefix = first :: rest)
include htokens

/-- What opens a block with a name is a header. -/
theorem heads_of_opening? (ho : opening? tokens = some o) {name : String}
    (hname : o.name = some name) :
    ∃ form u, Heads first rest form u ∧ form.keyword = o.construct.keyword ∧ u.text = name := by
  rw [opening?, htokens] at ho
  dsimp only at ho
  split at ho
  · rename_i hdef
    split at ho
    · obtain rfl := Option.some.inj ho
      obtain ⟨u, us, hrest, hu, htext⟩ := exists_cons_of_identifierText? hname
      exact ⟨.function, u, .function hdef hrest hu, rfl, htext⟩
    · simp at ho
  · split at ho
    · rename_i hkind
      split at ho
      · rename_i c hc
        obtain rfl := Option.some.inj ho
        by_cases hnamed : c.isNamed = true
        · dsimp only at hname
          rw [if_pos hnamed] at hname
          obtain ⟨u, us, hrest, hu, htext⟩ := exists_cons_of_identifierText? hname
          have hw := (isNamed_iff_mem_classWords hc).1 hnamed
          refine ⟨_, u, .classLike hw (by simp [Token.isKeyword, hkind]) hrest hu, ?_, htext⟩
          rw [keyword_classForm hw, (keyword_of_leadingConstruct? hc).1]
        · simp [hnamed] at hname
      · obtain ⟨-, hidentifier, -⟩ := opening_of_trailingOpening? ho hname
        rw [hkind] at hidentifier
        simp at hidentifier
    · obtain ⟨hheads, -, hconstruct, htext⟩ := opening_of_trailingOpening? ho hname
      exact ⟨.constructor, first, hheads, by rw [hconstruct]; rfl, htext⟩

/-- A header whose name is an identifier opens a block of its form and name, or none. -/
theorem opening?_of_heads (h : Heads first rest form u) (hu : u.kind = .identifier)
    (ho : opening? tokens = some o) :
    o.construct.keyword = form.keyword ∧ o.name = some u.text := by
  have hidentifier : identifierText? u = some u.text := if_pos hu
  rw [opening?, htokens] at ho
  dsimp only at ho
  cases h with
  | function hfirst hrest hname =>
      subst hrest
      rw [if_pos hfirst] at ho
      split at ho
      · obtain rfl := Option.some.inj ho
        exact ⟨rfl, hidentifier⟩
      · simp at ho
  | @classLike w _ _ hw hfirst hrest hname =>
      subst hrest
      rw [Token.isKeyword, Bool.and_eq_true, beq_iff_eq, beq_iff_eq] at hfirst
      obtain ⟨hkind, rfl⟩ := hfirst
      obtain ⟨c, hc⟩ : ∃ c, leadingConstruct? first.text = some c := by
        simp only [classWords, List.mem_cons, List.not_mem_nil, or_false] at hw
        rcases hw with h | h | h | h <;> rw [h] <;> exact ⟨_, rfl⟩
      obtain ⟨hkeyword, hdef⟩ := keyword_of_leadingConstruct? hc
      have hnamed := (isNamed_iff_mem_classWords hc).2 hw
      rw [if_neg (by simp [Token.isKeyword, hdef]), if_pos hkind, hc] at ho
      obtain rfl := Option.some.inj ho
      exact ⟨by rw [hkeyword, keyword_classForm hw], by simp [hnamed, hidentifier]⟩
  | constructor hfirst hparen hcolon =>
      rw [if_neg (by simp [Token.isKeyword, hu]), if_neg (by simp [hu]), trailingOpening?] at ho
      simp only [hu, hfirst, hparen, hcolon, beq_self_eq_true, Bool.and_self, if_true] at ho
      obtain rfl := Option.some.inj ho
      exact ⟨rfl, rfl⟩

end

/-! ### Declarations -/

theorem Token.eq_of_isKeyword {t : Token} {w w' : String} (h : t.isKeyword w = true)
    (h' : t.isKeyword w' = true) : w = w' := by
  simp only [isKeyword, Bool.and_eq_true, beq_iff_eq] at h h'
  exact h.2.symm.trans h'.2

theorem Token.isKeyword_eq_false {t : Token} {w w' : String} (h : t.isKeyword w = true)
    (hne : w ≠ w') : t.isKeyword w' = false :=
  Bool.eq_false_iff.2 fun h' => hne (eq_of_isKeyword h h')

namespace Collect

variable {tree : ScopeTree} {line : Line}

/-- The first of the declarations has the given form and name, and the block of the line as its
body; the others are declared by other words. -/
def Introduces (tree : ScopeTree) (line : Line) (form : DeclarationForm) (name : String)
    (ds : List Declaration) : Prop :=
  ∃ d more, ds = d :: more ∧ d.form = form ∧ d.name = name ∧ d.line = line.index ∧
    d.body = bodyOf tree line ∧ ∀ e ∈ more, e.form.keyword ∉ headerWords

theorem introduces_classDecls (word : String) (name : Span) :
    Introduces tree line (classForm word) (spanText name line.masked)
      (classDecls tree line word name) := by
  unfold classDecls
  dsimp only
  cases hbody : bodyOf tree line with
  | none => exact ⟨_, [], rfl, rfl, rfl, rfl, hbody.symm, by simp⟩
  | some body =>
      refine ⟨_, _, rfl, rfl, rfl, rfl, hbody.symm, fun e he => ?_⟩
      rw [(fields_of_mem_parameterDecls he).1]
      decide

theorem introduces_functionDecls (form : DeclarationForm) (name : Span) :
    Introduces tree line form (spanText name line.masked) (functionDecls tree line form name) := by
  unfold functionDecls
  dsimp only
  cases hbody : bodyOf tree line with
  | none => exact ⟨_, [], rfl, rfl, rfl, rfl, hbody.symm, by simp⟩
  | some body =>
      refine ⟨_, _, rfl, rfl, rfl, rfl, hbody.symm, fun e he => ?_⟩
      rw [(fields_of_mem_parameterDecls he).1]
      decide

theorem form_of_mem_caughtDecls {name : Span} {type : Option Span} {d : Declaration}
    (h : d ∈ caughtDecls tree line name type) : d.form = .caughtError := by
  unfold caughtDecls at h
  dsimp only at h
  split at h
  · simp at h
  · rw [List.mem_singleton.1 h]

theorem form_of_mem_memberDecls {d : Declaration} (h : d ∈ memberDecls tree line) :
    d.form = .enumValue ∨ d.form = .signature := by
  unfold memberDecls at h
  split at h
  · simp at h
  · split at h
    · simp at h
    · split at h
      · obtain ⟨name, -, rfl⟩ := List.mem_map.1 h
        exact .inl rfl
      · split at h
        · obtain ⟨name, -, rfl⟩ := List.mem_map.1 h
          exact .inr rfl
        · simp at h

theorem keyword_of_mem_addVariable {v : Shape.Variable} {d : Declaration}
    (h : d ∈ (addVariable tree line {} v).declarations) : d.form.keyword ∉ headerWords := by
  have hword (m : Mutability) : m.keyword ∉ headerWords := by cases m <;> decide
  unfold addVariable at h
  split at h
  · have hd : d = variableDecl tree line v := by simpa [add] using h
    rw [hd]
    exact hword v.declarator
  · simp at h

/-- Of what is tried last, only a constructor is declared with a body. -/
theorem exists_constructor_of_mem {d : Declaration}
    (h : d ∈ (addUnworded tree line {}).declarations)
    (hkeyword : d.form.keyword ∈ headerWords) :
    ∃ found, Shape.constructor? line.masked = some found ∧
      (stripEnd line.masked).getLast? = some ':' := by
  have hmember (h : d ∈ memberDecls tree line) : False := by
    rcases form_of_mem_memberDecls h with hform | hform <;> rw [hform] at hkeyword <;>
      exact absurd hkeyword (by decide)
  unfold addUnworded at h
  split at h
  · rw [(mem_loopDecls (by simpa [add] using h)).1] at hkeyword
    exact absurd hkeyword (by decide)
  · split at h
    · rw [form_of_mem_caughtDecls (by simpa [add] using h)] at hkeyword
      exact absurd hkeyword (by decide)
    · split at h
      · rename_i name c hfound
        split at h
        · exact ⟨_, hfound, ‹_›⟩
        · exact (hmember (by simpa [add] using h)).elim
      · exact (hmember (by simpa [add] using h)).elim

end Collect

namespace Headed

open Collect

variable {tree : ScopeTree} {l : Line} {first u : Token} {rest : List Token}
  {form : DeclarationForm} (h : Headed l.masked l.index first rest)
include h

theorem isBlank_eq_false : l.isBlank = false := by
  rw [Bool.eq_false_iff]
  intro hblank
  refine h.not_all_isBlank (List.all_eq_true.2 fun d hd => ?_)
  rcases l.blanks_masked.eq_or_mem hd with rfl | hd
  · rfl
  · exact List.all_eq_true.1 hblank d hd

theorem of_classLike? {found : String × Span × Cursor}
    (hfound : Shape.classLike? l.masked = some found) :
    found.1 ∈ classWords ∧ first.isKeyword found.1 = true ∧
      ∃ u us, rest = u :: us ∧ u.isName = true ∧ found.2.1 = ⟨u.column, u.stop⟩ :=
  h.of_wordThenName? (by decide) hfound

theorem of_function? {found : Span × Cursor} (hfound : Shape.function? l.masked = some found) :
    first.isKeyword "def" = true ∧
      ∃ u us, rest = u :: us ∧ u.isName = true ∧ found.1 = ⟨u.column, u.stop⟩ := by
  obtain ⟨word, hword, rfl⟩ := Option.map_eq_some_iff.1 hfound
  obtain ⟨hw, hfirst, hrest⟩ := h.of_wordThenName? (by decide) hword
  rw [List.mem_singleton.1 hw] at hfirst
  exact ⟨hfirst, hrest⟩

theorem classLike?_eq_none (hne : ∀ w ∈ classWords, first.isKeyword w = false) :
    Shape.classLike? l.masked = none := by
  refine Option.eq_none_iff_forall_ne_some.2 fun found hfound => ?_
  obtain ⟨hw, hfirst, -⟩ := h.of_classLike? hfound
  rw [hne _ hw] at hfirst
  simp at hfirst

theorem function?_eq_none (hne : first.isKeyword "def" = false) :
    Shape.function? l.masked = none := by
  refine Option.eq_none_iff_forall_ne_some.2 fun found hfound => ?_
  rw [(h.of_function? hfound).1] at hne
  simp at hne

/-- A name with an upper-case letter is no keyword. -/
theorem isKeyword_of_startsUpper (hupper : first.startsUpper = true) (w : String) :
    first.isKeyword w = false := by
  have hall : ∀ w ∈ keywords, w.toList.head?.any Char.isUpper = false := by decide
  have hkind : first.kind ≠ .keyword := by
    rw [h.kind_eq (List.mem_cons_self ..) h.isName, wordKind]
    split
    · rename_i hmem
      rw [Token.startsUpper_eq, hall _ (List.contains_iff_mem.1 hmem)] at hupper
      simp at hupper
    · simp
  rw [Token.isKeyword, beq_eq_false_iff_ne.2 hkind, Bool.false_and]

theorem introduces_function {us : List Token} (hfirst : first.isKeyword "def" = true)
    (hrest : rest = u :: us) (hu : u.isName = true) :
    Introduces tree l .function u.text (lineDecls tree l) := by
  have himport := h.import?_eq_none (Token.isKeyword_eq_false hfirst (by decide))
  have hclass := h.classLike?_eq_none fun w hw =>
    Token.isKeyword_eq_false hfirst fun heq => absurd (heq ▸ hw) (by decide)
  obtain ⟨c, hc⟩ :=
    h.exists_wordThenName? (by decide) (List.mem_singleton_self "def") hfirst hrest hu
  have hfunction : Shape.function? l.masked = some (⟨u.column, u.stop⟩, c) := by
    rw [Shape.function?, hc]
    rfl
  have hdecls : lineDecls tree l = functionDecls tree l .function ⟨u.column, u.stop⟩ := by
    simp [lineDecls, addLine, h.isBlank_eq_false, himport, hclass, hfunction, add]
  rw [hdecls, ← h.spanText_eq (t := u) (by simp [hrest])]
  exact introduces_functionDecls _ _

theorem introduces_classLike {w : String} {us : List Token} (hw : w ∈ classWords)
    (hfirst : first.isKeyword w = true) (hrest : rest = u :: us) (hu : u.isName = true) :
    Introduces tree l (classForm w) u.text (lineDecls tree l) := by
  have himport := h.import?_eq_none
    (Token.isKeyword_eq_false hfirst fun heq => absurd (heq ▸ hw) (by decide))
  obtain ⟨c, hc⟩ := h.exists_wordThenName? (by decide) hw hfirst hrest hu
  have hclass : Shape.classLike? l.masked = some (w, ⟨u.column, u.stop⟩, c) := hc
  have hdecls : lineDecls tree l = classDecls tree l w ⟨u.column, u.stop⟩ := by
    simp [lineDecls, addLine, h.isBlank_eq_false, himport, hclass, add]
  rw [hdecls, ← h.spanText_eq (t := u) (by simp [hrest])]
  exact introduces_classDecls _ _

theorem introduces_constructor (hfirst : first.startsUpper = true)
    (hparen : rest.head?.any (·.isSymbol "(") = true)
    (hcolon : (rest.getLastD first).isSymbol ":" = true) :
    Introduces tree l .constructor first.text (lineDecls tree l) := by
  -- All shapes that are tried before this one start with a word in lower case.
  have hkeyword := h.isKeyword_of_startsUpper hfirst
  have hlower : first.text.toList.head? ≠ some 'c' := by
    intro hhead
    rw [Token.startsUpper_eq, hhead] at hfirst
    exact absurd hfirst (by decide)
  have hfound := h.constructor?_eq
  rw [hfirst, hparen, Bool.and_self, if_pos rfl] at hfound
  obtain ⟨⟨name, c⟩, hconstructor, rfl⟩ := Option.map_eq_some_iff.1 hfound
  have hend := h.getLast?_stripEnd_iff.2 hcolon
  have hdecls : lineDecls tree l =
      functionDecls tree l .constructor ⟨first.column, first.stop⟩ := by
    simp [lineDecls, addLine, addUnworded, h.isBlank_eq_false, h.import?_eq_none (hkeyword _),
      h.classLike?_eq_none fun w _ => hkeyword w, h.function?_eq_none (hkeyword _),
      h.variableLine?_eq_none fun m => hkeyword _, h.loop?_eq_none (hkeyword _),
      h.caught?_eq_none hlower, hconstructor, hend, add]
  rw [hdecls, ← h.spanText_eq (List.mem_cons_self ..)]
  exact introduces_functionDecls _ _

/-- A header declares what its tokens say. -/
theorem introduces_lineDecls (hheads : Heads first rest form u) :
    Introduces tree l form u.text (lineDecls tree l) := by
  cases hheads with
  | function hfirst hrest hu => exact h.introduces_function hfirst hrest hu
  | classLike hw hfirst hrest hu => exact h.introduces_classLike hw hfirst hrest hu
  | constructor hfirst hparen hcolon => exact h.introduces_constructor hfirst hparen hcolon

theorem heads_of_constructor? {found : Span × Cursor}
    (hfound : Shape.constructor? l.masked = some found)
    (hend : (stripEnd l.masked).getLast? = some ':') : Heads first rest .constructor first := by
  have hshape := h.constructor?_eq
  rw [hfound, Option.map_some] at hshape
  split at hshape
  · rename_i hcond
    rw [Bool.and_eq_true] at hcond
    exact .constructor hcond.1 hcond.2 (h.getLast?_stripEnd_iff.1 hend)
  · simp at hshape

/-- What a line declares with a body, it declares by its tokens. -/
theorem heads_of_mem_lineDecls {d : Declaration} (hd : d ∈ lineDecls tree l)
    (hkeyword : d.form.keyword ∈ headerWords) : ∃ form u, Heads first rest form u := by
  rw [lineDecls, addLine, h.isBlank_eq_false] at hd
  simp only [Bool.false_eq_true, if_false] at hd
  -- The shapes in the order in which they are tried.
  cases himport : Shape.import? l.masked with
  | some found => simp [himport] at hd
  | none =>
      cases hclass : Shape.classLike? l.masked with
      | some found =>
          obtain ⟨hw, hfirst, u, us, hrest, hu, -⟩ := h.of_classLike? hclass
          exact ⟨_, u, .classLike hw hfirst hrest hu⟩
      | none =>
          cases hfunction : Shape.function? l.masked with
          | some found =>
              obtain ⟨hfirst, u, us, hrest, hu, -⟩ := h.of_function? hfunction
              exact ⟨_, u, .function hfirst hrest hu⟩
          | none =>
              simp only [himport, hclass, hfunction] at hd
              cases hvariable : Shape.variableLine? l.masked with
              | some v =>
                  simp only [hvariable] at hd
                  exact absurd hkeyword (keyword_of_mem_addVariable hd)
              | none =>
                  simp only [hvariable] at hd
                  obtain ⟨found, hfound, hend⟩ := exists_constructor_of_mem hd hkeyword
                  exact ⟨_, first, h.heads_of_constructor? hfound hend⟩

end Headed

/-! ### Lines -/

theorem Token.kind_masked (t : Token) : t.masked.kind = t.kind :=
  t.alike_masked.kind

theorem Token.isName_masked (t : Token) : t.masked.isName = t.isName := by
  rw [isName, isName, kind_masked]

theorem Token.masked_of_isName {t : Token} (h : t.isName = true) : t.masked = t := by
  refine masked_of_ne fun hkind => ?_
  simp [isName, hkind] at h

theorem Token.isSymbol_masked (t : Token) (s : String) : t.masked.isSymbol s = t.isSymbol s := by
  by_cases hkind : t.kind = .string
  · rw [isSymbol, isSymbol, kind_masked, hkind]
    rfl
  · rw [masked_of_ne hkind]

/-- What a header declares depends on the name behind its first word, and on the signs behind its
first word and at its end. -/
theorem Heads.congr {first u : Token} {rest rest' : List Token} {form : DeclarationForm}
    (hname : ∀ u, u.isName = true → (∃ us, rest = u :: us) → ∃ us, rest' = u :: us)
    (hparen : rest'.head?.any (·.isSymbol "(") = rest.head?.any (·.isSymbol "("))
    (hcolon : (rest'.getLastD first).isSymbol ":" = (rest.getLastD first).isSymbol ":")
    (h : Heads first rest form u) : Heads first rest' form u := by
  cases h with
  | function hdef hrest hu =>
      obtain ⟨us, hrest⟩ := hname u hu ⟨_, hrest⟩
      exact .function hdef hrest hu
  | classLike hw hword hrest hu =>
      obtain ⟨us, hrest⟩ := hname u hu ⟨_, hrest⟩
      exact .classLike hw hword hrest hu
  | constructor hupper hopen hend =>
      exact .constructor hupper (hparen.trans hopen) (hcolon.trans hend)

/-- What a header declares does not depend on its literals. -/
theorem heads_map_masked {first u : Token} {rest : List Token} {form : DeclarationForm}
    (hfirst : first.isName = true) :
    Heads first (rest.map Token.masked) form u ↔ Heads first rest form u := by
  have hparen : (rest.map Token.masked).head?.any (·.isSymbol "(") =
      rest.head?.any (·.isSymbol "(") := by
    cases rest with
    | nil => rfl
    | cons t ts => exact t.isSymbol_masked "("
  have hlast : (rest.map Token.masked).getLastD first = (rest.getLastD first).masked := by
    rcases List.eq_nil_or_concat' rest with rfl | ⟨more, t, rfl⟩
    · exact (Token.masked_of_isName hfirst).symm
    · simp
  have hcolon : ((rest.map Token.masked).getLastD first).isSymbol ":" =
      (rest.getLastD first).isSymbol ":" := by
    rw [hlast, Token.isSymbol_masked]
  refine ⟨Heads.congr ?_ hparen.symm hcolon.symm, Heads.congr ?_ hparen hcolon⟩
  · rintro u hu ⟨us, hrest⟩
    obtain ⟨v, vs, rfl, rfl, -⟩ := List.map_eq_cons_iff.1 hrest
    rw [Token.isName_masked] at hu
    exact ⟨vs, by rw [Token.masked_of_isName hu]⟩
  · rintro u hu ⟨us, rfl⟩
    exact ⟨us.map Token.masked, by rw [List.map_cons, Token.masked_of_isName hu]⟩

/-- A header starts with annotations, each with white space or a comment behind it, then modifiers,
then another word. An annotation is an at sign and a name: in `@1 def f() do` there is none, and the
line opens a block with no name. -/
def Line.IsHeader (l : Line) : Prop :=
  (∀ t ∈ l.codeTokens.takeWhile (·.kind == .marker), l.GapAt t.stop) ∧
    ((l.codeTokens.dropWhile (·.kind == .marker)).dropWhile
      (·.isKeywordIn modifiers)).head?.any Token.isName = true

instance (l : Line) : Decidable l.IsHeader :=
  inferInstanceAs (Decidable (_ ∧ _))

theorem Line.IsHeader.exists_tokens {l : Line} (h : l.IsHeader) :
    ∃ markers mods first rest, l.codeTokens = markers ++ (mods ++ first :: rest) ∧
      (∀ t ∈ markers, t.kind = .marker ∧ l.GapAt t.stop) ∧
      (∀ t ∈ mods, t.isKeywordIn modifiers = true) ∧
      first.isName = true ∧ first.isKeywordIn modifiers = false := by
  obtain ⟨hmarkers, hfirst⟩ := h
  obtain ⟨first, hhead, hname⟩ := (Option.any_eq_true ..).1 hfirst
  obtain ⟨rest, hrest⟩ := List.head?_eq_some_iff.1 hhead
  refine ⟨l.codeTokens.takeWhile (·.kind == .marker),
    (l.codeTokens.dropWhile (·.kind == .marker)).takeWhile (·.isKeywordIn modifiers), first, rest,
    ?_, fun t ht => ⟨?_, hmarkers t ht⟩, ?_, hname, ?_⟩
  · rw [← hrest, List.takeWhile_append_dropWhile, List.takeWhile_append_dropWhile]
  · simpa using List.mem_takeWhile_imp ht
  · intro t ht
    simpa using List.mem_takeWhile_imp ht
  · have hnot := List.head?_dropWhile_not (·.isKeywordIn modifiers)
      (l.codeTokens.dropWhile (·.kind == .marker))
    simpa [hrest] using hnot

/-- No colon is left in a masked literal. -/
theorem Line.Lexed.colon_notMem {l : Line} (h : l.Lexed) {t : Token} (ht : t ∈ l.codeTokens)
    (hkind : t.masked.kind = .string) : ':' ∉ t.masked.text.toList := by
  intro hcolon
  have hlex : t ∈ (lexFrom l.index 0 l.code).1 := by rw [h.code]; exact ht
  rw [Token.kind_masked] at hkind
  rcases Token.eq_of_mem_masked hlex hkind hcolon with h | h | h <;> exact absurd h (by decide)

theorem Line.IsHeader.exists_headed {text : List Char} {uri : Option String} {l : Line}
    (h : l.IsHeader) (hl : l ∈ (Document.ofText text uri).lines)
    (hascii : ∀ c ∈ l.text, isAsciiText c = true) :
    ∃ first rest, l.codeTokens.dropWhile Token.isDeclarationPrefix = first :: rest ∧
      Headed l.masked l.index first (rest.map Token.masked) := by
  obtain ⟨markers, mods, first, rest, htokens, hmarkers, hmods, hname, hplain⟩ := h.exists_tokens
  obtain ⟨hlexed, hlossless⟩ :=
    Document.lexed_of_codeTokens_ne_nil hl (by rw [htokens]; simp)
  refine ⟨first, rest, ?_, ?_, ?_, hname, hplain, ?_⟩
  · rw [htokens]
    exact dropWhile_isDeclarationPrefix (fun t ht => (hmarkers t ht).1) hmods hname hplain
  · intro d hd
    rcases (l.blanks_code.trans l.blanks_masked).eq_or_mem hd with rfl | hd
    · rfl
    · exact hascii d hd
  · -- The prefix has no literals, so it is the same in the masked text.
    have hkept (ts : List Token) (hts : ∀ t ∈ ts, t.kind ≠ .string) : ts.map Token.masked = ts := by
      rw [List.map_congr_left fun t ht => Token.masked_of_ne (hts t ht), List.map_id']
    refine ⟨markers, mods, ?_, ?_, hmods⟩
    · rw [hlexed.masked, htokens, List.map_append, List.map_append, List.map_cons,
        Token.masked_of_isName hname, hkept markers, hkept mods]
      · intro t ht hkind
        simpa [Token.isName, hkind] using Token.isName_of_isKeywordIn (hmods t ht)
      · intro t ht hkind
        rw [(hmarkers t ht).1] at hkind
        simp at hkind
    · exact fun t ht => ⟨(hmarkers t ht).1, l.any_isBlank_masked hlossless (hmarkers t ht).2⟩
  · intro t ht
    obtain ⟨t, hmem, rfl⟩ := List.mem_map.1 ht
    have hcode : t ∈ l.codeTokens := by
      rw [htokens]
      simp [hmem]
    refine ⟨?_, hlexed.colon_notMem hcode⟩
    rw [Token.kind_masked]
    exact Line.kind_ne_comment hcode

/-! ### Documents -/

/-- The declarations on a line are those of the line. -/
theorem DeclarationTable.filter_declarations {doc : Document} (hdoc : doc.IsNumbered)
    (tree : ScopeTree) {l : Line} (hl : l ∈ doc.lines) {p : Declaration → Bool}
    (hp : ∀ d, p d = true → d.line = l.index) :
    (collect doc tree).declarations.filter p = (Collect.lineDecls tree l).filter p := by
  obtain ⟨before, after, hlines⟩ := List.append_of_mem hl
  have hnodup : (doc.lines.map Line.index).Nodup := by
    rw [hdoc]
    exact List.nodup_range
  have hother {ls : List Line} (hls : ∀ m ∈ ls, m.index ≠ l.index) :
      (ls.flatMap (Collect.lineDecls tree)).filter p = [] := by
    refine List.filter_eq_nil_iff.2 fun d hd hpd => ?_
    obtain ⟨m, hm, hd⟩ := List.mem_flatMap.1 hd
    exact hls m hm (((Collect.declares_lineDecls tree m).line_eq hd).symm.trans (hp d hpd))
  rw [hlines, List.map_append, List.map_cons, List.nodup_append] at hnodup
  obtain ⟨-, hafter, hbefore⟩ := hnodup
  rw [declarations_collect, hlines, List.flatMap_append, List.flatMap_cons, List.filter_append,
    List.filter_append, hother, hother, List.nil_append, List.append_nil]
  · intro m hm heq
    exact (List.nodup_cons.1 hafter).1 (heq ▸ List.mem_map_of_mem hm)
  · intro m hm
    exact hbefore _ (List.mem_map_of_mem hm) _ (List.mem_cons_self ..)

section

variable {text : List Char} {uri : Option String} {l : Line}
  (hl : l ∈ (Document.ofText text uri).lines) (hascii : ∀ c ∈ l.text, isAsciiText c = true)
  (hheader : l.IsHeader)
include hl hascii hheader

/-- A named block has one declaration, which points to it. -/
theorem exists_declaration_of_frame {i : Nat} {f : Frame} {name : String}
    (hf : (ScopeTree.build (Document.ofText text uri)).frame? i = some f)
    (hstart : f.start = l.index) (hkeyword : f.construct.keyword ∈ headerWords)
    (hname : f.name = some name) :
    ∃ d, ((DeclarationTable.collect (Document.ofText text uri)
        (ScopeTree.build (Document.ofText text uri))).declarations.filter fun d =>
          d.form.keyword == f.construct.keyword && d.name == name && d.line == f.start) = [d] ∧
      d.body = some f.id := by
  have hdoc := Document.isNumbered_ofText text uri
  obtain ⟨first, rest, htokens, hheaded⟩ := hheader.exists_headed hl hascii
  obtain ⟨l', hl', hindex, hopened⟩ := ScopeTree.openedAt?_of_name hdoc hf hname
  obtain rfl : l' = l := hdoc.eq_of_index hl' hl (hindex.trans hstart)
  obtain ⟨-, -, -, hopening⟩ := ScopeTree.opening_of_openedAt? hdoc hl hopened
  -- What the tokens say of the line is what its masked text says.
  obtain ⟨form, u, hheads, hform, htext⟩ := heads_of_opening? htokens hopening hname
  obtain ⟨d, more, hdecls, hdform, hdname, hdline, hbody, hmore⟩ :=
    hheaded.introduces_lineDecls ((heads_map_masked hheaded.isName).2 hheads)
  refine ⟨d, ?_, by rw [hbody, Collect.bodyOf, hopened, Option.map_some]⟩
  rw [DeclarationTable.filter_declarations hdoc _ hl, hdecls, List.filter_cons_of_pos,
    List.filter_eq_nil_iff.2]
  · -- Parameters and components are declared by other words.
    intro e he hcond
    simp only [Bool.and_eq_true, beq_iff_eq] at hcond
    exact hmore e he (hcond.1.1 ▸ hkeyword)
  · simp [hdform, hdname, hdline, hform, htext, hstart]
  · intro e hcond
    simp only [Bool.and_eq_true, beq_iff_eq] at hcond
    exact hcond.2.trans hstart

/-- A declaration with a body points to a block of its own. -/
theorem exists_frame_of_declaration {d : Declaration} {b : Nat}
    (hd : d ∈ (DeclarationTable.collect (Document.ofText text uri)
      (ScopeTree.build (Document.ofText text uri))).declarations)
    (hline : d.line = l.index) (hkeyword : d.form.keyword ∈ headerWords) (hname : d.name ∉ keywords)
    (hbody : d.body = some b) :
    ∃ f, (ScopeTree.build (Document.ofText text uri)).frame? b = some f ∧
      f.construct.keyword = d.form.keyword ∧ f.name = some d.name ∧ f.start = d.line := by
  have hdoc := Document.isNumbered_ofText text uri
  obtain ⟨first, rest, htokens, hheaded⟩ := hheader.exists_headed hl hascii
  obtain ⟨l', hl', hd, hindex⟩ := DeclarationTable.exists_line_of_mem hd
  obtain rfl : l' = l := hdoc.eq_of_index hl' hl (hindex.symm.trans hline)
  obtain ⟨form, u, hheads⟩ := hheaded.heads_of_mem_lineDecls hd hkeyword
  obtain ⟨e, more, hdecls, rfl, hename, -, hebody, hmore⟩ := hheaded.introduces_lineDecls hheads
  obtain rfl : d = e := by
    rw [hdecls] at hd
    rcases List.mem_cons.1 hd with hd | hd
    · exact hd
    · exact absurd hkeyword (hmore d hd)
  rw [hebody, Collect.bodyOf] at hbody
  obtain ⟨f, hopened, rfl⟩ := Option.map_eq_some_iff.1 hbody
  obtain ⟨hframe, -, hstart, hopening⟩ := ScopeTree.opening_of_openedAt? hdoc hl hopened
  have hidentifier : u.kind = .identifier := by
    obtain ⟨hmem, hu⟩ := hheads.mem_isName hheaded.isName
    rw [hheaded.kind_eq hmem hu, wordKind, ← hename]
    exact if_neg (by simpa using hname)
  obtain ⟨hconstruct, hfname⟩ :=
    opening?_of_heads htokens ((heads_map_masked hheaded.isName).1 hheads) hidentifier hopening
  exact ⟨f, hframe, hconstruct, hfname.trans (congrArg some hename.symm), hstart.trans hline.symm⟩

end

/-- On a header line the scope tree and the declaration table agree: a named block has exactly one
declaration, which points to it, and a declaration with a body points to a block of its own form and
name. -/
theorem headers_are_recognised_alike (text : List Char) (uri : Option String) (l : Line)
    (hl : l ∈ (Document.ofText text uri).lines) (hascii : ∀ c ∈ l.text, isAsciiText c = true)
    (hheader : l.IsHeader) :
    let doc := Document.ofText text uri
    let tree := ScopeTree.build doc
    let table := DeclarationTable.collect doc tree
    (∀ f ∈ tree.frames, f.start = l.index → f.construct.keyword ∈ headerWords →
      ∀ name, f.name = some name →
        ∃ d, (table.declarations.filter fun d =>
            d.form.keyword == f.construct.keyword && d.name == name && d.line == f.start) = [d] ∧
          d.body = some f.id) ∧
    ∀ d ∈ table.declarations, d.line = l.index → d.form.keyword ∈ headerWords →
      d.name ∉ keywords → ∀ b, d.body = some b →
        ∃ f, tree.frame? b = some f ∧ f.construct.keyword = d.form.keyword ∧
          f.name = some d.name ∧ f.start = d.line := by
  intro doc tree table
  constructor
  · intro f hf hstart hkeyword name hname
    obtain ⟨i, hi⟩ := Array.mem_iff_getElem?.1 hf
    exact exists_declaration_of_frame hl hascii hheader hi hstart hkeyword hname
  · intro d hd hline hkeyword hname b hbody
    exact exists_frame_of_declaration hl hascii hheader hd hline hkeyword hname hbody

/-- A header with comments for blanks, and with words in comments that are none of the code. -/
def knottyHeader : List Char :=
  "@Pure/*1*/ public def/* \" */size(x: Int): // end".toList

theorem headers_are_recognised_alike_knotty :
    let doc := Document.ofText ("class Box\n".toList ++ knottyHeader ++ "\nend\nend".toList) none
    let tree := ScopeTree.build doc
    let table := DeclarationTable.collect doc tree
    ∃ l f d, doc.lines[1]? = some l ∧ l.text = knottyHeader ∧ l.IsHeader ∧
      tree.frame? 2 = some f ∧ f.construct.keyword = "def" ∧ f.name = some "size" ∧
      (table.declarations.filter fun d =>
        d.form.keyword == "def" && d.name == "size" && d.line == 1) = [d] ∧
      d.body = some 2 ∧
      ∃ g, tree.frame? 2 = some g ∧ g.construct.keyword = d.form.keyword ∧
        g.name = some d.name ∧ g.start = d.line := by
  intro doc tree table
  let l : Line := ⟨1, knottyHeader, (lexLine knottyHeader 1 false).1⟩
  have hl : doc.lines[1]? = some l := by decide +kernel
  have hheader : l.IsHeader := by decide +kernel
  have hmap : (tree.frame? 2).map (fun f => (f.id, f.construct.keyword, f.name, f.start)) =
      some (2, "def", some "size", 1) := by
    decide +kernel
  obtain ⟨f, hf, hfields⟩ := Option.map_eq_some_iff.1 hmap
  simp only [Prod.mk.injEq] at hfields
  obtain ⟨hid, hkeyword, hname, hstart⟩ := hfields
  have hascii : knottyHeader.all isAsciiText = true := by decide +kernel
  have h := headers_are_recognised_alike _ none l (List.mem_of_getElem? hl)
    (List.all_eq_true.1 hascii) hheader
  obtain ⟨d, hd, hbody⟩ :=
    h.1 f (Array.mem_of_getElem? hf) hstart (by rw [hkeyword]; decide) _ hname
  rw [hkeyword, hstart] at hd
  rw [hid] at hbody
  have hmem := List.mem_filter.1 (hd ▸ List.mem_singleton_self d)
  simp only [Bool.and_eq_true, beq_iff_eq] at hmem
  obtain ⟨hmem, ⟨hform, hdname⟩, hline⟩ := hmem
  exact ⟨l, f, d, hl, rfl, hheader, hf, hkeyword, hname, hd, hbody,
    h.2 d hmem hline (by rw [hform]; decide) (by rw [hdname]; decide) 2 hbody⟩

end Polyloft
