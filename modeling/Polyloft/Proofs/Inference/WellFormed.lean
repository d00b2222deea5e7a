import Polyloft.Proofs.Inference.Stable

/-!
# Polyloft.Proofs.Inference.WellFormed

Every type that is ever met is well formed: what a text is read as, what a document declares, what
the catalog gives for a method, what inference answers and what it remembers. Types are made in many
places and go back into each other through declarations; each place keeps them well formed, so none
of them has to look at what it is given.

## Proof shape

Inference is covered by one predicate on computations, `Infer.Returns`, and the questions follow it
one by one (`Question.returns_ask`). What earlier questions remember is well formed whatever they
were about, because a receiver is never remembered (`Analysis.grows_memoAfter`). The parameters in a
declaration table are read by `Parameter.parseList` wherever a line has some.
-/

namespace Polyloft

open Polyloft.Text

/-! ### Parameters of declarations -/

namespace Collect

variable {tree : ScopeTree} {line : Line} {ds : List Declaration} {d : Declaration} {p : Parameter}

/-- A parameter is itself declared without parameters. -/
theorem params_of_mem_parameterDecls {params : List Parameter} {form : DeclarationForm} {body : Nat}
    {owner : Option String} (h : d ∈ parameterDecls line params form body owner) :
    d.params = [] := by
  obtain ⟨p, -, rfl⟩ := List.mem_map.1 h
  rfl

theorem wellFormed_param_of_mem_functionDecls {form : DeclarationForm} {name : Span}
    (h : d ∈ functionDecls tree line form name) (hp : p ∈ d.params) : p.type.WellFormed := by
  rcases mem_functionDecls h with ⟨hhead, -⟩ | ⟨body, hparameter⟩
  · have hparams : d.params = (paramsAfter line name.stop).1 := by
      unfold functionDecls at hhead
      dsimp only at hhead
      split at hhead <;> exact Option.some.inj hhead ▸ rfl
    rw [hparams] at hp
    exact wellFormed_of_mem_paramsAfter hp
  · rw [params_of_mem_parameterDecls hparameter] at hp
    simp at hp

theorem wellFormed_param_of_mem_classDecls {word : String} {name : Span}
    (h : d ∈ classDecls tree line word name) (hp : p ∈ d.params) : p.type.WellFormed := by
  rcases mem_classDecls h with ⟨hhead, -⟩ | ⟨params, body, owner, -, -, hcomponent⟩
  · have hparams : d.params =
        if classForm word = .recordType then (paramsAfter line name.stop).1 else [] := by
      unfold classDecls at hhead
      dsimp only at hhead
      split at hhead <;> exact Option.some.inj hhead ▸ rfl
    rw [hparams] at hp
    split at hp
    · exact wellFormed_of_mem_paramsAfter hp
    · simp at hp
  · rw [params_of_mem_parameterDecls hcomponent] at hp
    simp at hp

theorem wellFormed_param_of_mem_memberDecls (h : d ∈ memberDecls tree line) (hp : p ∈ d.params) :
    p.type.WellFormed := by
  unfold memberDecls at h
  split at h
  · simp at h
  · split at h
    · simp at h
    · split at h
      · obtain ⟨name, -, rfl⟩ := List.mem_map.1 h
        simp at hp
      · split at h
        · obtain ⟨name, -, rfl⟩ := List.mem_map.1 h
          exact wellFormed_of_mem_paramsAfter hp
        · simp at h

/-- The parameters that a line declares have well-formed types. -/
theorem Declares.wellFormed_param (h : Declares tree line ds) (hd : d ∈ ds) (hp : p ∈ d.params) :
    p.type.WellFormed := by
  cases h with
  | nothing => simp at hd
  | classLike word name _ => exact wellFormed_param_of_mem_classDecls hd hp
  | function form _ name _ => exact wellFormed_param_of_mem_functionDecls hd hp
  | «variable» v =>
      obtain rfl := List.mem_singleton.1 hd
      simp [variableDecl] at hp
  | loop l hl =>
      unfold loopDecls at hd
      split at hd
      · simp at hd
      · rcases List.mem_cons.1 hd with rfl | hd
        · simp at hp
        · obtain ⟨second, -, rfl⟩ := Option.map_eq_some_iff.1 (Option.mem_toList.1 hd)
          simp at hp
  | caught name type =>
      unfold caughtDecls at hd
      dsimp only at hd
      split at hd
      · simp at hd
      · obtain rfl := List.mem_singleton.1 hd
        simp at hp
  | member => exact wellFormed_param_of_mem_memberDecls hd hp

end Collect

theorem DeclarationTable.wellFormed_param {doc : Document} {tree : ScopeTree} {d : Declaration}
    (h : d ∈ (collect doc tree).declarations) {p : Parameter} (hp : p ∈ d.params) :
    p.type.WellFormed := by
  obtain ⟨line, -, hd, -⟩ := exists_line_of_mem h
  exact (Collect.declares_lineDecls tree line).wellFormed_param hd hp

/-! ### Answers -/

namespace Question

variable {a : Analysis}

/-- A question about a receiver is about one of a well-formed type. -/
def HasWellFormedReceiver : Question a → Prop
  | .method receiver _ => receiver.WellFormed
  | _ => True

open Infer

/-- Every question has an answer, and a type that is answered is well formed. -/
theorem returns_ask (ha : a.IsRead) {q : Question a} (hq : q.HasWellFormedReceiver) :
    Returns Ty.Answer q.ask := by
  have htype : ∀ d ∈ a.table.declarations, Infer.returns.rel Ty.WellFormed (a.declarationType d)
      (a.declarationType d) := fun d hd => Analysis.returns_declarationType ha hd
  have hanswer : ∀ t : Ty, t.WellFormed → Ty.Answer (some t) := fun _ => Ty.answer_some
  cases q with
  | expression text line =>
      exact Returns.map (Expression.rel_inferText htype text line) hanswer
  | code tokens line => exact (Analysis.returns_inferTokens ha tokens line).map hanswer
  | returned d => exact (Analysis.returns_returnTypeIn ha _ d).map hanswer
  | called d => exact (Analysis.returns_functionType ha d).map hanswer
  | declared d => exact (Analysis.returns_declarationType ha d.2).map hanswer
  | named name line =>
      refine Returns.map ?_ hanswer
      unfold Analysis.variableType
      split
      · rename_i d hd
        exact Analysis.returns_declarationType ha (DeclarationTable.mem_of_visible? hd)
      · exact .pure .any
  | method receiver name =>
      exact Returns.map (Expression.rel_methodType htype name hq) hanswer
  | member owner name => exact Expression.rel_memberType? htype owner name

end Question

namespace Analysis

/-- Every type is well formed: those that inference answers, whatever was asked before, and those
that it remembers; the written types of declarations and of their parameters; the type of a method
of a built-in type; and what comes out of a substitution. -/
theorem types_are_wellFormed (text : List Char) (uri : Option String) (catalog : Catalog) :
    let a := Analysis.ofText text uri catalog
    (∀ before : List (Question a), (Question.memoAfter before {}).WellTyped ∧
      ∀ q : Question a, q.HasWellFormedReceiver →
        ∃ answer, q.answerAfter before = .ok answer ∧ Ty.Answer answer) ∧
    (∀ line, (a.thisType line).WellFormed) ∧
    (∀ d ∈ a.table.declarations, (∀ t, d.declaredType = some t → t.WellFormed) ∧
      ∀ p ∈ d.params, p.type.WellFormed) ∧
    (∀ (receiver t : Ty) (method : String), receiver.WellFormed →
      catalog.methodType? receiver method = some t → t.WellFormed) ∧
    ∀ (bindings : List (String × Ty)) (t : Ty), (∀ b ∈ bindings, b.2.WellFormed) → t.WellFormed →
      (t.substitute bindings).WellFormed := by
  intro a
  have ha : a.IsRead := isRead_ofText text uri catalog
  refine ⟨?_, Expression.wellFormed_thisType a, ?_, ?_, ?_⟩
  · intro before
    have hmemo := (grows_memoAfter ha before Memo.wellTyped_empty).1
    refine ⟨hmemo, ?_⟩
    intro q hq
    obtain ⟨answer, memo', hask, hanswer, -⟩ := Question.returns_ask ha hq _ hmemo
    exact ⟨answer, by rw [Question.answerAfter, hask], hanswer⟩
  · intro d hd
    exact ⟨fun t => ha.consistent.wellFormed hd, fun p => DeclarationTable.wellFormed_param hd⟩
  · intro receiver t method hreceiver
    exact Catalog.wellFormed_methodType? hreceiver
  · intro bindings t hbindings ht
    exact ht.substitute hbindings

/-- A box that may be empty: what it holds is joined with something else. -/
def boxCatalog : Catalog where
  types := [⟨.str "Box", ["T"], "", [⟨"get", [], "T | Nil", "", .str "Box"⟩]⟩]

/-- A box that holds a union. -/
def boxText : List Char :=
  "var b: Box<Int | String>\nvar x = b.get()".toList

/-- A member of a union is replaced by a union, which makes three members of two, and by `Any`,
which leaves no union at all. -/
theorem types_are_wellFormed_box :
    let a := Analysis.ofText boxText none boxCatalog
    let content : Ty := .union [.int, .string]
    let full : Question a := .method (.named "Box" [content]) "get"
    let unknown : Question a := .method (.simple "Box") "get"
    let shown (q : Question a) (before : List (Question a)) :=
      (q.answerAfter before).toOption.map fun answer => answer.map Ty.render
    content.WellFormed ∧ shown full [] = some (some "Int | String | Nil") ∧
      shown (.named "x" 1) [full, unknown] = some (some "Int | String | Nil") ∧
      shown unknown [full] = some (some "Any") ∧
      (∃ answer, full.answerAfter [] = .ok answer ∧ Ty.Answer answer) ∧
      ∃ answer, unknown.answerAfter [full] = .ok answer ∧ Ty.Answer answer := by
  intro a content full unknown shown
  have hcontent : content.WellFormed := by
    refine .union (by decide) (by decide) (by simp [Ty.isNamed]) ?_ (by simp [Ty.same])
    simpa using ⟨Ty.WellFormed.simple "Int", Ty.WellFormed.simple "String"⟩
  have h := (types_are_wellFormed boxText none boxCatalog).1
  refine ⟨hcontent, by decide +kernel, by decide +kernel, by decide +kernel, ?_, ?_⟩
  · exact (h []).2 full (.named (by simpa using hcontent))
  · exact (h [full]).2 unknown (.simple "Box")

end Analysis

end Polyloft
