import Polyloft.Proofs.Query.Inheritance

/-!
# Polyloft.Proofs.Query.Member

What a word after a dot can mean. Where an expression stands before the dot, hover and
go-to-definition look only at what this expression has: at the package that it names, or else at the
built-in methods of its type, at what the class-likes of the type and their ancestors declare, and
at what enumerations and all values have (`member_word_resolved_in_receiver`). No keyword, no global
function and no declaration that is merely visible or has the same name is ever the answer.

Where no expression can be read before the dot, the word counts as plain, and then a function of the
same name is the answer after all (`plain_function_after_super`).

## Proof shape

An answer of a sequence of computations is traced back to the answers of its parts
(`Infer.exists_of_after_bind_eq_ok`), and the walk over the alternatives of the receiver's type by
induction on them (`showsMember_of_memberHover`, `declaresMember_of_memberOf?`). That there is an
answer is `returns_hover` and `returns_definition`.
-/

namespace Polyloft

/-- An answer of two computations in sequence is an answer of the second on one of the first. -/
theorem Infer.exists_of_after_bind_eq_ok {α β : Type} {x : Infer α} {f : α → Infer β}
    {memo memo' : Memo} {b : β} (h : (x >>= f).after memo = (.ok b, memo')) :
    ∃ t memo₁, x.after memo = (.ok t, memo₁) ∧ (f t).after memo₁ = (.ok b, memo') := by
  rcases hafter : x.after memo with ⟨e | t, memo₁⟩
  · rw [after_bind_error hafter] at h
    exact absurd (Prod.mk.inj h).1 (by simp)
  · exact ⟨t, memo₁, rfl, by rwa [after_bind_ok hafter] at h⟩

/-- A method that has a signature is one of the catalog. -/
theorem Catalog.exists_method?_of_methodSignature? {catalog : Catalog} {receiver : Ty}
    {name signature : String} (h : catalog.methodSignature? receiver name = some signature) :
    ∃ f, catalog.method? receiver name = some f := by
  cases receiver with
  | any => simp [methodSignature?] at h
  | union members => simp [methodSignature?] at h
  | named n args =>
      obtain ⟨t, ht, h⟩ := Option.bind_eq_some_iff.1 h
      obtain ⟨f, hf, -⟩ := Option.map_eq_some_iff.1 h
      exact ⟨f, by rw [method?, ht, Option.bind_some, hf]⟩

/-- The code tokens before a column of a line, nearest first. -/
def Document.before? (doc : Document) (line : Int) (column : Nat) : Option (List Token) :=
  (doc.line? line).map fun l => (l.codeTokens.filter fun t => t.column < column).reverse

/-- Behind a dot the receiver is what can be read before the dot, if that is anything. -/
theorem Document.receiverAt?_eq {doc : Document} {line : Int} {column : Nat} {dot : Token}
    {before : List Token} (hbefore : doc.before? line column = some (dot :: before))
    (hdot : dot.isSymbol "." = true) (hreceiver : receiverBack before ≠ []) :
    doc.receiverAt? line column = some (receiverBack before) := by
  obtain ⟨l, hline, htokens⟩ := Option.map_eq_some_iff.1 hbefore
  rw [receiverAt?, hline, Option.bind_some, htokens, MemberContext.after, if_pos hdot]
  simp [hreceiver]

namespace Analysis

variable (a : Analysis)

/-! ### Members of a type -/

/-- The declaration is a member of that name of a class-like that the type, or one of its
alternatives, names, or of an ancestor. -/
def DeclaresMember (type : Ty) (word : String) (d : Declaration) : Prop :=
  ∃ name args owner, .named name args ∈ type.alternatives ∧ a.table.Ancestor name owner ∧
    d ∈ a.table.members owner ∧ d.name = word

/-- What may be shown for a member of a value of a type. -/
inductive ShowsMember (type : Ty) (word : String) : Hover → Prop
  /-- A method that the catalog has for the type. -/
  | builtin {name : String} {args : List Ty} {f : CatalogFunction} {signature : String} :
      .named name args ∈ type.alternatives →
      a.catalog.method? (.named name args) word = some f →
      a.catalog.methodSignature? (.named name args) word = some signature →
      ShowsMember type word ⟨signature, nonempty? f.description, none⟩
  /-- A declared member. -/
  | declared {d : Declaration} {shown : Hover} {memo memo' : Memo} :
      a.DeclaresMember type word d → (a.declarationHover d).after memo = (.ok shown, memo') →
      ShowsMember type word shown
  /-- What every enumeration or each of its values has. -/
  | enum {name : String} {args : List Ty} {e : Declaration} {m : EnumMember} :
      .named name args ∈ type.alternatives → a.table.classLike? name = some e →
      e.form = .enumType → m ∈ enumStatics ++ enumFields → m.name = word →
      ShowsMember type word ⟨name ++ "." ++ m.signature name, none, none⟩
  /-- The conversion to text. -/
  | toString : word = "toString" → ShowsMember type word ⟨toStringSignature, none, none⟩

variable {a} {word : String}

theorem declaresMember_of_inheritedMember? {type : Ty} {name : String} {args : List Ty}
    {d : Declaration} (hname : .named name args ∈ type.alternatives)
    (h : a.table.inheritedMember? name word = some d) : a.DeclaresMember type word d := by
  obtain ⟨owner, howner, hd, hword⟩ := DeclarationTable.exists_of_inheritedMember? h
  exact ⟨name, args, owner, hname, howner, hd, hword⟩

/-! ### Go-to-definition -/

theorem declaresMember_of_memberOf? {type : Ty} {types : List Ty} {d : Declaration}
    (htypes : types ⊆ type.alternatives) (h : a.memberOf? word types = .ok (some d)) :
    a.DeclaresMember type word d := by
  induction types with
  | nil => simp [memberOf?] at h
  | cons t types ih =>
      rw [List.cons_subset] at htypes
      cases t with
      | any => simp [memberOf?] at h
      | union members => simp [memberOf?] at h
      | named name args =>
          rw [memberOf?] at h
          split at h
          · rename_i found hfound
            obtain rfl := Option.some.inj (Except.ok.inj h)
            exact declaresMember_of_inheritedMember? htypes.1 hfound
          · exact ih htypes.2 h

/-! ### Hover -/

theorem showsMember_of_namedMemberHover {type : Ty} {name : String} {args : List Ty}
    {shown : Hover} {memo memo' : Memo} (hname : .named name args ∈ type.alternatives)
    (h : (a.namedMemberHover (.named name args) name word).after memo = (.ok (some shown), memo')) :
    a.ShowsMember type word shown := by
  unfold namedMemberHover at h
  split at h
  · rename_i signature hsignature
    obtain rfl := Option.some.inj (Except.ok.inj (Prod.mk.inj h).1)
    obtain ⟨f, hf⟩ := Catalog.exists_method?_of_methodSignature? hsignature
    rw [hf]
    exact .builtin hname hf hsignature
  · split at h
    · rename_i d hd
      obtain ⟨hover, memo₁, hhover, hshown⟩ := Infer.exists_of_after_bind_eq_ok h
      obtain rfl := Option.some.inj (Except.ok.inj (Prod.mk.inj hshown).1)
      exact .declared (declaresMember_of_inheritedMember? hname hd) hhover
    · split at h
      · rename_i henum
        obtain ⟨e, he, hform⟩ := Option.any_eq_true _ _ |>.1 henum
        obtain ⟨m, hm, rfl⟩ := Option.map_eq_some_iff.1 (Except.ok.inj (Prod.mk.inj h).1)
        exact .enum hname he (by simpa using hform) (List.mem_of_find?_eq_some hm)
          (by simpa using List.find?_some hm)
      · exact absurd (Except.ok.inj (Prod.mk.inj h).1) (by simp)

theorem showsMember_of_memberHover {type : Ty} {types : List Ty} {shown : Hover}
    {memo memo' : Memo} (htypes : types ⊆ type.alternatives)
    (h : (a.memberHover word types).after memo = (.ok (some shown), memo')) :
    a.ShowsMember type word shown := by
  induction types generalizing memo with
  | nil =>
      rw [memberHover] at h
      split at h
      · rename_i hword
        obtain rfl := Option.some.inj (Except.ok.inj (Prod.mk.inj h).1)
        exact .toString hword
      · exact absurd (Except.ok.inj (Prod.mk.inj h).1) (by simp)
  | cons t types ih =>
      rw [List.cons_subset] at htypes
      cases t with
      | any => exact absurd (Prod.mk.inj h).1 (by simp)
      | union members => exact absurd (Prod.mk.inj h).1 (by simp)
      | named name args =>
          rw [memberHover] at h
          obtain ⟨_ | found, memo₁, hfound, h⟩ := Infer.exists_of_after_bind_eq_ok h
          · exact ih htypes.2 h
          · obtain rfl := Option.some.inj (Except.ok.inj (Prod.mk.inj h).1)
            exact showsMember_of_namedMemberHover htypes.1 hfound

/-- Only a declared member is shown with a place, which is its own. -/
theorem ShowsMember.place {type : Ty} {shown : Hover} {place : Location}
    (h : a.ShowsMember type word shown) (hplace : shown.location = some place) :
    ∃ d, a.DeclaresMember type word d ∧ place = a.locationOf d := by
  cases h with
  | builtin => simp at hplace
  | @declared d _ memo memo' hd hshown =>
      have hown := ensures_declarationHover d memo _ memo' hshown
      exact ⟨d, hd, Option.some.inj (hplace.symm.trans hown)⟩
  | enum => simp at hplace
  | toString => simp at hplace

/-! ### A word after a dot -/

/-- What is shown for a word after a receiver: a member of the package that the receiver names, or
else of the type that the receiver is inferred to have. -/
theorem showsMember_of_receiverHover {receiver : List Token} {line : Int} {shown : Hover}
    {memo memo' : Memo}
    (h : (a.receiverHover receiver word line).after memo = (.ok (some shown), memo')) :
    (∃ p m, a.packageOf? receiver line = some p ∧ p.member? word = some m ∧
        shown = ⟨m.signature, nonempty? m.description, none⟩) ∨
      ∃ type memo₁, (a.inferTokens receiver line).after memo = (.ok type, memo₁) ∧
        a.ShowsMember type word shown := by
  unfold receiverHover at h
  split at h
  · rename_i p hp
    obtain ⟨m, hm, rfl⟩ := Option.map_eq_some_iff.1 (Except.ok.inj (Prod.mk.inj h).1)
    exact .inl ⟨p, m, hp, hm, rfl⟩
  · obtain ⟨type, memo₁, htype, h⟩ := Infer.exists_of_after_bind_eq_ok h
    exact .inr ⟨type, memo₁, htype, showsMember_of_memberHover (List.Subset.refl _) h⟩

/-- At every position where a dot stands before the word, and an expression before the dot, both
queries have an answer, whatever is remembered: go-to-definition none or the place of a member that
the type of the expression declares, and hover none, a member of the package that the expression
names, or a member of its type. -/
theorem member_word_resolved_in_receiver (text : List Char) (uri : Option String)
    (catalog : Catalog) (position : Position) (word : Option String) (resolver : Resolver)
    {queried : String} {start : Nat} {dot : Token} {before : List Token} {memo : Memo} :
    let a := Analysis.ofText text uri catalog
    let receiver := receiverBack before
    a.queriedWord? position word = some (queried, start) →
    a.document.before? position.line start = some (dot :: before) → dot.isSymbol "." = true →
    receiver ≠ [] → memo.WellTyped →
    (∃ place? memo', (a.definition position word resolver).after memo = (.ok place?, memo') ∧
      ∀ place, place? = some place → ∃ type memo₁ d,
        (a.inferTokens receiver position.line).after memo = (.ok type, memo₁) ∧
        a.DeclaresMember type queried d ∧ place = a.locationOf d) ∧
    ∃ shown? memo', (a.hover position word resolver).after memo = (.ok shown?, memo') ∧
      ∀ shown, shown? = some shown →
        (∃ p m, a.packageOf? receiver position.line = some p ∧ p.member? queried = some m ∧
          shown = ⟨m.signature, nonempty? m.description, none⟩) ∨
        ∃ type memo₁, (a.inferTokens receiver position.line).after memo = (.ok type, memo₁) ∧
          a.ShowsMember type queried shown := by
  intro a receiver hqueried hbefore hdot hreceiver hmemo
  have ha : a.IsRead := isRead_ofText text uri catalog
  have hat := Document.receiverAt?_eq hbefore hdot hreceiver
  constructor
  · obtain ⟨place?, memo', hafter, -⟩ := returns_definition ha position word resolver memo hmemo
    refine ⟨place?, memo', hafter, ?_⟩
    rintro place rfl
    rw [definition, hqueried] at hafter
    simp only [hat] at hafter
    obtain ⟨type, memo₁, htype, hafter⟩ := Infer.exists_of_after_bind_eq_ok hafter
    obtain ⟨member, memo₂, hmember, hafter⟩ := Infer.exists_of_after_bind_eq_ok hafter
    obtain ⟨d, rfl, rfl⟩ := Option.map_eq_some_iff.1 (Except.ok.inj (Prod.mk.inj hafter).1)
    exact ⟨type, memo₁, d, htype,
      declaresMember_of_memberOf? (List.Subset.refl _) (Prod.mk.inj hmember).1, rfl⟩
  · obtain ⟨shown?, memo', hafter, -⟩ := returns_hover ha position word resolver memo hmemo
    refine ⟨shown?, memo', hafter, ?_⟩
    rintro shown rfl
    rw [hover, hqueried] at hafter
    simp only [hat] at hafter
    exact showsMember_of_receiverHover hafter

/-- A field of a class, asked for on a value of the class. -/
def fieldOfValue : List Char :=
  "class P\nvar x = 1\nend\nvar p = P()\np.x".toList

/-- Both queries resolve the field. -/
theorem member_word_resolved_in_receiver_fieldOfValue :
    let a := Analysis.ofText fieldOfValue none {}
    ∃ dot before, a.queriedWord? ⟨4, 2⟩ none = some ("x", 2) ∧
      a.document.before? 4 2 = some (dot :: before) ∧ dot.isSymbol "." = true ∧
      receiverBack before ≠ [] ∧
      (∃ place? memo', (a.definition ⟨4, 2⟩ none .none).after {} = (.ok place?, memo') ∧
        place? = some ⟨none, 1, 4⟩ ∧
        ∀ place, place? = some place → ∃ type memo₁ d,
          (a.inferTokens (receiverBack before) 4).after {} = (.ok type, memo₁) ∧
          a.DeclaresMember type "x" d ∧ place = a.locationOf d) := by
  intro a
  have hchecked : a.queriedWord? ⟨4, 2⟩ none = some ("x", 2) ∧
      a.document.before? 4 2 =
        some [⟨.operator, ".", 4, 1, true⟩, ⟨.identifier, "p", 4, 0, true⟩] ∧
      receiverBack [⟨.identifier, "p", 4, 0, true⟩] ≠ [] ∧
      (a.definition ⟨4, 2⟩ none .none).answer.toOption = some (some ⟨none, 1, 4⟩) := by
    decide +kernel
  obtain ⟨hqueried, hbefore, hreceiver, hfound⟩ := hchecked
  obtain ⟨place?, memo', hafter, hplace⟩ := (member_word_resolved_in_receiver fieldOfValue none {}
    ⟨4, 2⟩ none .none hqueried hbefore rfl hreceiver Memo.wellTyped_empty).1
  refine ⟨_, _, hqueried, hbefore, rfl, hreceiver, place?, memo', hafter, ?_, hplace⟩
  have hanswer := eq_ok_of_toOption hfound
  rw [Infer.answer, hafter] at hanswer
  exact Except.ok.inj hanswer

/-- A function, and a member of the same name of what `super` stands for. -/
def memberOfSuper : List Char :=
  "def area() -> Int:\nend\nsuper.area()".toList

/-- No expression can be read from `super`, and the plain function is the answer. -/
theorem plain_function_after_super :
    let a := Analysis.ofText memberOfSuper none {}
    let place : Location := ⟨none, 0, 4⟩
    let shown : Hover := ⟨"def area() -> Int", none, some place⟩
    (∃ dot before, a.queriedWord? ⟨2, 6⟩ none = some ("area", 6) ∧
      a.document.before? 2 6 = some (dot :: before) ∧ dot.isSymbol "." = true ∧
      receiverBack before = []) ∧
      (a.definition ⟨2, 6⟩ none .none).answer = .ok (some place) ∧
      (a.hover ⟨2, 6⟩ none .none).answer = .ok (some shown) ∧
      ∀ type, (∀ d, a.DeclaresMember type "area" d → place ≠ a.locationOf d) ∧
        ¬ a.ShowsMember type "area" shown := by
  intro a place shown
  have hchecked : a.queriedWord? ⟨2, 6⟩ none = some ("area", 6) ∧
      a.document.before? 2 6 =
        some [⟨.operator, ".", 2, 5, true⟩, ⟨.keyword, "super", 2, 0, true⟩] ∧
      receiverBack [⟨.keyword, "super", 2, 0, true⟩] = [] ∧
      (a.definition ⟨2, 6⟩ none .none).answer.toOption = some (some place) ∧
      (a.hover ⟨2, 6⟩ none .none).answer.toOption = some (some shown) ∧
      ∀ d ∈ a.table.declarations, a.locationOf d = place → d.owner = none := by
    decide +kernel
  obtain ⟨hqueried, hbefore, hreceiver, hfound, hshown, howners⟩ := hchecked
  have hother (type : Ty) (d : Declaration) (hd : a.DeclaresMember type "area" d) :
      place ≠ a.locationOf d := by
    obtain ⟨name, args, owner, -, -, hmember, -⟩ := hd
    intro hplace
    have hmem := List.mem_filter.1 hmember
    simp [howners d hmem.1 hplace.symm] at hmem
  refine ⟨⟨_, _, hqueried, hbefore, rfl, hreceiver⟩, eq_ok_of_toOption hfound,
    eq_ok_of_toOption hshown, fun type => ⟨hother type, ?_⟩⟩
  intro h
  obtain ⟨d, hd, hplace⟩ := h.place rfl
  exact hother type d hd hplace

end Analysis

end Polyloft
