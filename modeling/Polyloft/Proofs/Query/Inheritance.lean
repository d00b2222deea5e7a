import Mathlib.Logic.Relation
import Polyloft.Proofs.Inference.Access
import Polyloft.Proofs.Inference.Guarded
import Polyloft.Proofs.Query.Agreement
import Polyloft.Proofs.Query.Total
import Polyloft.Proofs.Ty.Same

/-!
# Polyloft.Proofs.Query.Inheritance

Three questions walk from a class-like to its parents: what the type of a member is, where a member
is declared, and what can be written after a receiver. On a chain of class-likes without
enumerations they agree (`inheritance_walks_agree`). A member has a type exactly when it has a
declaration, and its type is the type of that declaration; what is offered after a receiver are,
beside the built-in methods, members that have a declaration, and of these all but the constructors.
A receiver that names a package is not of this kind, whatever else is called like the package
(`package_hides_class`).

Every walk meets each class-like once, also where class-likes inherit from each other in a circle.

## Proof shape

The walks are three recursions with guards of their own, and each is a search or a collection along
`lineage`. The ancestors of a name are what can be reached through parents, and `lineage` lists them
(`mem_lineage`). The own members that the first walk looks for are, on such a chain, the members
that the second looks for (`ownMember?_eq`); the third collects the members of every class-like on
the way (`exists_declared_items`).
-/

namespace Polyloft

/-! ### Ancestors -/

namespace DeclarationTable

variable (table : DeclarationTable)

/-- `parent` is written as the parent of the class-like that `name` means. -/
def ParentOf (name parent : String) : Prop :=
  ∃ d, table.classLike? name = some d ∧ d.parent = some parent

/-- `ancestor` is `name`, its parent, the parent's parent and so on. -/
def Ancestor (name ancestor : String) : Prop :=
  Relation.ReflTransGen table.ParentOf name ancestor

variable {table}

theorem ancestor_of_mem_lineageFrom {seen : List String} {name c : String}
    (h : c ∈ table.lineageFrom seen name) : table.Ancestor name c := by
  fun_induction lineageFrom table seen name with
  | case1 seen name hname => simp at h
  | case2 seen name hname hnone =>
      rw [List.mem_singleton.1 h]
      exact .refl
  | case3 seen name hname d hd hlt hparent =>
      rw [List.mem_singleton.1 h]
      exact .refl
  | case4 seen name hname d hd hlt parent hparent ih =>
      rcases List.mem_cons.1 h with rfl | h
      · exact .refl
      · exact .head ⟨d, hd, hparent⟩ (ih h)

theorem mem_lineageFrom_self {seen : List String} {name : String} (h : name ∉ seen) :
    name ∈ table.lineageFrom seen name := by
  obtain ⟨more, hmore⟩ := table.exists_lineageFrom_eq_cons h
  rw [hmore]
  exact List.mem_cons_self ..

/-- The walk only leaves out the parent of a name that it meets if the parent was met before. -/
theorem mem_lineageFrom_of_parentOf {seen : List String} {name c parent : String}
    (hc : c ∈ table.lineageFrom seen name) (hparent : table.ParentOf c parent) :
    parent ∈ table.lineageFrom seen name ∨ parent ∈ seen := by
  obtain ⟨e, he, hp⟩ := hparent
  fun_induction lineageFrom table seen name with
  | case1 seen name hname => simp at hc
  | case2 seen name hname hnone =>
      rw [List.mem_singleton.1 hc, hnone] at he
      exact absurd he (by simp)
  | case3 seen name hname d hd hlt hroot =>
      rw [List.mem_singleton.1 hc, hd] at he
      obtain rfl := Option.some.inj he
      exact absurd (hroot.symm.trans hp) (by simp)
  | case4 seen name hname d hd hlt above habove ih =>
      rcases List.mem_cons.1 hc with rfl | hc
      · rw [hd] at he
        obtain rfl := Option.some.inj he
        obtain rfl := Option.some.inj (habove.symm.trans hp)
        by_cases hmet : above ∈ c :: seen
        · rcases List.mem_cons.1 hmet with rfl | hmet
          · exact .inl (List.mem_cons_self ..)
          · exact .inr hmet
        · exact .inl (List.mem_cons_of_mem _ (mem_lineageFrom_self hmet))
      · rcases ih hc with h | h
        · exact .inl (List.mem_cons_of_mem _ h)
        · rcases List.mem_cons.1 h with rfl | h
          · exact .inl (List.mem_cons_self ..)
          · exact .inr h

/-- The lineage lists the ancestors. -/
theorem mem_lineage {name c : String} : c ∈ table.lineage name ↔ table.Ancestor name c := by
  constructor
  · exact ancestor_of_mem_lineageFrom
  · intro h
    induction h with
    | refl => exact mem_lineageFrom_self (by simp)
    | tail _ hparent ih => exact (mem_lineageFrom_of_parentOf ih hparent).resolve_right (by simp)

/-- A member is found exactly when a class-like on the way declares it. -/
theorem isSome_inheritedMember?_iff {owner m : String} :
    (table.inheritedMember? owner m).isSome ↔
      ∃ c d, table.Ancestor owner c ∧ d ∈ table.members c ∧ d.name = m := by
  simp only [inheritedMember?_eq_findSome?, List.findSome?_isSome_iff, mem_lineage, member?,
    List.find?_isSome, members, List.mem_filter, Bool.and_eq_true, beq_iff_eq]
  constructor
  · rintro ⟨c, hc, d, hd, howner, hname⟩
    exact ⟨c, d, hc, ⟨hd, howner⟩, hname⟩
  · rintro ⟨c, d, hc, ⟨hd, howner⟩, hname⟩
    exact ⟨c, hc, d, hd, howner, hname⟩

/-- What is found is declared by a class-like on the way and has the name that was asked for. -/
theorem exists_of_inheritedMember? {owner m : String} {d : Declaration}
    (h : table.inheritedMember? owner m = some d) :
    ∃ c, table.Ancestor owner c ∧ d ∈ table.members c ∧ d.name = m := by
  rw [inheritedMember?_eq_findSome?] at h
  obtain ⟨c, hc, hmember⟩ := List.exists_of_findSome?_eq_some h
  have hfound := List.find?_some hmember
  simp only [Bool.and_eq_true, beq_iff_eq] at hfound
  exact ⟨c, mem_lineage.1 hc,
    List.mem_filter.2 ⟨List.mem_of_find?_eq_some hmember, by simp [hfound.1]⟩, hfound.2⟩

/-! ### Chains of class-likes -/

variable (table) in
/-- The name means a class-like that is no enumeration, and no enumeration value belongs to it. -/
def IsPlainClass (name : String) : Prop :=
  (∃ d, table.classLike? name = some d ∧ d.form ≠ .enumType) ∧ table.enumValues name = []

instance (name : String) : Decidable (table.IsPlainClass name) :=
  decidable_of_iff (((table.classLike? name).any fun d => d.form ≠ .enumType) = true ∧
      (table.enumValues name).isEmpty = true) <| by
    simp [IsPlainClass, Option.any_eq_true]

theorem form_ne_of_member? {name m : String} {d : Declaration} (h : table.IsPlainClass name)
    (hd : table.member? name m = some d) : d.form ≠ .enumValue := by
  intro hform
  have howner := List.find?_some hd
  simp only [Bool.and_eq_true] at howner
  have hmem : d ∈ table.enumValues name := by
    simp [enumValues, members, List.mem_of_find?_eq_some hd, howner.1, hform]
  simp [h.2] at hmem

/-- What a class-like that is no enumeration has by itself is what it declares. -/
theorem ownMember?_eq {name m : String} {d : Declaration} (h : table.IsPlainClass name)
    (hd : table.classLike? name = some d) :
    table.ownMember? d m = (table.member? name m).map .declared := by
  obtain ⟨e, he, hform⟩ := h.1
  obtain rfl := Option.some.inj (hd.symm.trans he)
  rw [ownMember?, name_of_classLike? hd]
  cases hmember : table.member? name m with
  | none => simp [hform]
  | some found => simp [Option.filter, form_ne_of_member? h hmember]

/-- On such a chain a member comes from its declaration. -/
theorem memberSource?_eq {owner : String}
    (h : ∀ c, table.Ancestor owner c → table.IsPlainClass c) (m : String) :
    table.memberSource? owner m = (table.inheritedMember? owner m).map .declared := by
  have hplain : ∀ c ∈ table.lineage owner, table.IsPlainClass c :=
    fun c hc => h c (mem_lineage.1 hc)
  rw [memberSource?_eq_findSome?, inheritedMember?_eq_findSome?, classLikes]
  generalize table.lineage owner = names at hplain
  induction names with
  | nil => rfl
  | cons c names ih =>
      rw [List.forall_mem_cons] at hplain
      obtain ⟨d, hd, -⟩ := hplain.1.1
      rw [List.filterMap_cons_some hd, List.findSome?_cons, List.findSome?_cons,
        ownMember?_eq hplain.1 hd]
      cases table.member? c m with
      | none => exact ih hplain.2
      | some found => rfl

end DeclarationTable

/-! ### Types of members -/

namespace Analysis

variable {a : Analysis} {owner : String}

/-- On such a chain the type of a member is the type of its declaration. -/
theorem memberType?_eq (h : ∀ c, a.table.Ancestor owner c → a.table.IsPlainClass c) (m : String) :
    a.memberType? owner m =
      match a.table.inheritedMember? owner m with
      | none => pure none
      | some d => some <$> a.declarationType d := by
  rw [memberType?, Expression.memberType?, DeclarationTable.memberSource?_eq h m]
  cases a.table.inheritedMember? owner m <;> rfl

/-! ### Offered members -/

/-- Every candidate is taken from the candidates, and its label starts with the written part. -/
theorem mem_of_mem_matchingItems {typed : String} {items : List CompletionItem}
    {item : CompletionItem} (h : item ∈ matchingItems typed items) :
    item ∈ items ∧ typed.toList <+: item.label.toList := by
  revert h
  unfold matchingItems
  refine List.foldlRecOn (motive := fun kept => item ∈ kept →
    item ∈ items ∧ typed.toList <+: item.label.toList) _ _ (by simp) ?_
  intro kept hkept next hnext h
  split at h
  · exact hkept h
  · rename_i hfits
    simp only [Bool.or_eq_true, not_or, Bool.not_eq_true', Bool.not_eq_false] at hfits
    rcases List.mem_append.1 h with h | h
    · exact hkept h
    · obtain rfl := List.mem_singleton.1 h
      exact ⟨hnext, List.isPrefixOf_iff_prefix.1 (by simpa using hfits.2)⟩

/-- Every label that starts with the written part is kept. -/
theorem exists_mem_matchingItems {typed : String} {items : List CompletionItem}
    {item : CompletionItem} (h : item ∈ items) (htyped : typed.toList <+: item.label.toList) :
    ∃ kept ∈ matchingItems typed items, kept.label = item.label := by
  unfold matchingItems
  -- What is kept stays kept, so it is enough that the label is kept when its turn comes.
  suffices hkeeps : ∀ kept : List CompletionItem,
      ((∃ k ∈ kept, k.label = item.label) ∨ item ∈ items) →
        ∃ k ∈ items.foldl (fun kept next =>
          if kept.any (·.label == next.label) || !typed.toList.isPrefixOf next.label.toList then
            kept
          else kept ++ [next]) kept, k.label = item.label from hkeeps [] (.inr h)
  clear h
  induction items with
  | nil => simp
  | cons next items ih =>
      intro kept hkept
      rw [List.foldl_cons]
      refine ih _ ?_
      rcases hkept with ⟨k, hk, hlabel⟩ | hmem
      · refine .inl ⟨k, ?_, hlabel⟩
        split
        · exact hk
        · exact List.mem_append_left _ hk
      · rcases List.mem_cons.1 hmem with rfl | hmem
        · left
          split
          · rename_i hold
            rw [List.isPrefixOf_iff_prefix.2 htyped] at hold
            simpa using hold
          · exact ⟨item, by simp, rfl⟩
        · exact .inr hmem

/-- Of declared members all are offered but enumeration values and constructors. -/
theorem exists_declared_items (ha : a.IsRead) {ds : List Declaration}
    (hds : ∀ d ∈ ds, d ∈ a.table.declarations) :
    ∃ found, ds.mapM a.memberItem? = .ok found ∧ ∀ label,
      (∃ item ∈ found.filterMap id, item.label = label) ↔
        ∃ d ∈ ds, d.form ≠ .enumValue ∧ d.form ≠ .constructor ∧ d.name = label := by
  induction ds with
  | nil => exact ⟨[], rfl, by simp⟩
  | cons d ds ih =>
      rw [List.forall_mem_cons] at hds
      obtain ⟨found, hfound, hlabels⟩ := ih hds.2
      obtain ⟨text, htext⟩ := exists_commentAbove_eq_ok ha hds.1
      rw [List.mapM_cons, hfound]
      by_cases hskip : d.form = .enumValue ∨ d.form = .constructor
      · have hitem : a.memberItem? d = .ok none := by
          rw [memberItem?, if_pos (by simpa using hskip)]
        refine ⟨none :: found, by rw [hitem]; rfl, ?_⟩
        intro label
        rw [List.filterMap_cons_none rfl, hlabels label, List.exists_mem_cons_iff]
        tauto
      · have hitem : ∃ item, a.memberItem? d = .ok (some item) ∧ item.label = d.name := by
          rw [memberItem?, if_neg (by simpa using hskip), htext]
          simp only [bind, Except.bind]
          split <;> exact ⟨_, rfl, rfl⟩
        obtain ⟨item, hitem, hlabel⟩ := hitem
        refine ⟨some item :: found, by rw [hitem]; rfl, ?_⟩
        intro label
        rw [List.filterMap_cons_some (f := id) rfl, List.exists_mem_cons_iff, hlabels label,
          List.exists_mem_cons_iff, hlabel]
        tauto

/-- On such a chain a value is offered the built-in methods of its type and, constructors aside,
what the class-likes on the way declare. -/
theorem exists_typeItems_of_plain (ha : a.IsRead)
    (h : ∀ c, a.table.Ancestor owner c → a.table.IsPlainClass c) (args : List Ty) :
    ∃ items, a.typeItems (.named owner args) = .ok items ∧ ∀ label,
      (∃ item ∈ items, item.label = label) ↔
        (∃ t f, a.catalog.type? owner = some t ∧ f ∈ t.methods ∧ f.name = label) ∨
        ∃ c d, a.table.Ancestor owner c ∧ d ∈ a.table.members c ∧ d.form ≠ .constructor ∧
          d.name = label := by
  have hmember {d : Declaration} : d ∈ a.table.inheritedMembers owner ↔
      ∃ c, a.table.Ancestor owner c ∧ d ∈ a.table.members c := by
    simp only [DeclarationTable.inheritedMembers_eq_flatMap, DeclarationTable.classLikes,
      List.mem_flatMap, List.mem_filterMap, DeclarationTable.mem_lineage]
    constructor
    · rintro ⟨klass, ⟨c, hc, hklass⟩, hd⟩
      exact ⟨c, hc, DeclarationTable.name_of_classLike? hklass ▸ hd⟩
    · rintro ⟨c, hc, hd⟩
      obtain ⟨⟨klass, hklass, -⟩, -⟩ := h c hc
      exact ⟨klass, ⟨c, hc, hklass⟩, (DeclarationTable.name_of_classLike? hklass).symm ▸ hd⟩
  have hlisted : ∀ d ∈ a.table.inheritedMembers owner, d ∈ a.table.declarations := by
    intro d hd
    obtain ⟨c, -, hd⟩ := hmember.1 hd
    exact (List.mem_filter.1 hd).1
  obtain ⟨declared, hdeclared, hlabels⟩ := exists_declared_items ha hlisted
  have henum : ((a.table.classLike? owner).any fun d => d.form == .enumType) = false := by
    obtain ⟨⟨klass, hklass, hform⟩, -⟩ := h owner .refl
    simp [hklass, hform]
  refine ⟨_, by rw [typeItems, hdeclared]; rfl, ?_⟩
  intro label
  rw [henum, if_neg (by simp), List.append_nil]
  simp only [List.mem_append, or_and_right, exists_or, hlabels label]
  refine or_congr ?_ ?_
  · cases a.catalog.type? owner <;> simp [CompletionItem.ofMethod]
  · constructor
    · rintro ⟨d, hd, -, hform, hname⟩
      obtain ⟨c, hc, hd⟩ := hmember.1 hd
      exact ⟨c, d, hc, hd, hform, hname⟩
    · rintro ⟨c, d, hc, hd, hform, hname⟩
      refine ⟨d, hmember.2 ⟨c, hc, hd⟩, ?_, hform, hname⟩
      intro hvalue
      have hmem : d ∈ a.table.enumValues c := by simp [DeclarationTable.enumValues, hd, hvalue]
      simp [(h c hc).2] at hmem

end Analysis

/-! ### Completion behind a dot -/

/-- The receiver before the cursor, and the part of a member's name that is written behind its dot;
`none` where no member is asked for. -/
def Document.askedMember? (doc : Document) (position : Position) : Option (List Token × String) :=
  (doc.line? position.line).bind fun line =>
    match Analysis.typedPart line.codeTokens position.character with
    | (typed, dot :: before) =>
      if dot.isSymbol "." && !(receiverBack before).isEmpty then some (receiverBack before, typed)
      else none
    | _ => none

namespace Analysis

variable {a : Analysis} {owner : String}

theorem complete_of_askedMember? {position : Position} {receiver : List Token} {typed : String}
    (h : a.document.askedMember? position = some (receiver, typed)) :
    a.complete position =
      a.memberItems receiver position.line >>= fun items => pure (matchingItems typed items) := by
  obtain ⟨line, hline, h⟩ := Option.bind_eq_some_iff.1 h
  rw [complete, hline]
  split at h
  · rename_i part dot before hpart
    split at h
    · rename_i hasked
      obtain ⟨rfl, rfl⟩ := Prod.mk.inj (Option.some.inj h)
      simp only [Bool.and_eq_true, Bool.not_eq_true'] at hasked
      simp only [hpart, MemberContext.after, hasked.1, hasked.2, if_true, Bool.false_eq_true,
        if_false]
    · exact absurd h (by simp)
  · exact absurd h (by simp)

/-- What a receiver of a named type is offered: the members of the type, and `toString`. -/
theorem after_memberItems_of_named {receiver : List Token} {line : Int} {args : List Ty}
    {memo memo' : Memo} {items : List CompletionItem} (hpackage : a.packageOf? receiver line = none)
    (htype : (a.inferTokens receiver line).after memo = (.ok (.named owner args), memo'))
    (hitems : a.typeItems (.named owner args) = .ok items) :
    (a.memberItems receiver line).after memo =
      (.ok (items ++ [⟨"toString", .method, toStringSignature, none⟩]), memo') := by
  have hall : (Ty.named owner args).alternatives.mapM a.typeItems = .ok [items] := by
    simp only [Ty.alternatives, List.mapM_cons, List.mapM_nil, hitems]
    rfl
  rw [memberItems, hpackage]
  dsimp only
  rw [Infer.after_bind_ok htype, hall, Infer.after_bind_ok (Infer.after_ofExcept _ memo'),
    Infer.after_pure, List.flatten_singleton]

/-! ### Agreement -/

variable (a owner) in
/-- The three walks from a class-like to its parents agree. -/
structure WalksAgree : Prop where
  /-- The lineage lists every ancestor, -/
  meets : ∀ c, c ∈ a.table.lineage owner ↔ a.table.Ancestor owner c
  /-- and none of them twice. -/
  once : (a.table.lineage owner).Nodup
  /-- Along it the type of a member is looked for, -/
  sources : ∀ m, a.table.memberSource? owner m =
    (a.table.classLikes owner).findSome? (a.table.ownMember? · m)
  /-- and its declaration, -/
  declares : ∀ m, a.table.inheritedMember? owner m =
    (a.table.lineage owner).findSome? (a.table.member? · m)
  /-- and the members that are offered are collected. -/
  collects : a.table.inheritedMembers owner =
    (a.table.classLikes owner).flatMap (a.table.members ·.name)
  /-- A member has a type exactly when it has a declaration, and then the type of this one, -/
  types : ∀ m, a.memberType? owner m =
    match a.table.inheritedMember? owner m with
    | none => pure none
    | some d => some <$> a.declarationType d
  /-- which is always found. -/
  returns : ∀ m d, a.table.inheritedMember? owner m = some d →
    Infer.Returns Ty.WellFormed (a.declarationType d)
  /-- Behind a receiver of this type that names no package there are offered -/
  offers : ∀ position receiver typed args memo memo',
    a.document.askedMember? position = some (receiver, typed) →
    a.packageOf? receiver position.line = none →
    (a.inferTokens receiver position.line).after memo = (.ok (.named owner args), memo') →
    ∃ items, (a.complete position).after memo = (.ok items, memo') ∧
      -- beside built-in methods only members that have a declaration,
      (∀ item ∈ items,
        (∃ t f, a.catalog.type? owner = some t ∧ f ∈ t.methods ∧ f.name = item.label) ∨
          item.label = "toString" ∨ (a.table.inheritedMember? owner item.label).isSome) ∧
      -- and of these all but constructors.
      ∀ m d, a.table.inheritedMember? owner m = some d → d.form ≠ .constructor →
        typed.toList <+: m.toList → ∃ item ∈ items, item.label = m

/-- On a chain of declared class-likes without enumerations and their values, of any length and also
in a circle, the three walks over inheritance agree. -/
theorem inheritance_walks_agree (text : List Char) (uri : Option String) (catalog : Catalog)
    (owner : String) :
    let a := Analysis.ofText text uri catalog
    (∀ c, a.table.Ancestor owner c → a.table.IsPlainClass c) → a.WalksAgree owner := by
  intro a h
  have ha : a.IsRead := isRead_ofText text uri catalog
  refine ⟨fun c => DeclarationTable.mem_lineage, a.table.nodup_lineage owner,
    a.table.memberSource?_eq_findSome? owner, a.table.inheritedMember?_eq_findSome? owner,
    a.table.inheritedMembers_eq_flatMap owner, memberType?_eq h,
    fun m d hd => returns_declarationType ha (DeclarationTable.mem_of_inheritedMember? hd), ?_⟩
  intro position receiver typed args memo memo' hasked hpackage htype
  obtain ⟨items, hitems, hlabels⟩ := exists_typeItems_of_plain ha h args
  have hoffered := after_memberItems_of_named hpackage htype hitems
  refine ⟨_, by rw [complete_of_askedMember? hasked, Infer.after_bind_ok hoffered]; rfl, ?_, ?_⟩
  · intro item hitem
    rcases List.mem_append.1 (mem_of_mem_matchingItems hitem).1 with hitem | hitem
    · refine ((hlabels item.label).1 ⟨item, hitem, rfl⟩).imp_right fun hdeclared => .inr ?_
      obtain ⟨c, d, hc, hd, -, hname⟩ := hdeclared
      exact DeclarationTable.isSome_inheritedMember?_iff.2 ⟨c, d, hc, hd, hname⟩
    · obtain rfl := List.mem_singleton.1 hitem
      exact .inr (.inl rfl)
  · intro m d hd hform htyped
    obtain ⟨c, hc, hmember, hname⟩ := DeclarationTable.exists_of_inheritedMember? hd
    obtain ⟨item, hitem, rfl⟩ := (hlabels m).2 (.inr ⟨c, d, hc, hmember, hform, hname⟩)
    exact exists_mem_matchingItems (List.mem_append_left _ hitem) htyped

/-! ### Two classes in a circle, and a class that a package hides -/

/-- An answer that is the same type as a name without arguments is this type. -/
theorem eq_ok_simple_of_same {x : Except Fault Ty} {name : String}
    (h : x.toOption.any (Ty.same (.simple name)) = true) : x = .ok (.simple name) := by
  cases x with
  | error e => simp [Except.toOption] at h
  | ok t =>
      obtain ⟨args, rfl, hargs⟩ := Ty.exists_named_of_same h
      obtain rfl := List.forall₂_nil_left_iff.1 hargs
      rfl

/-- Two classes that inherit from each other, and a value of the first. -/
def mutualParents : List Char :=
  ("class A < B\nend\nclass B < A\ndef eat(): 1\nend\nvar d = A()\nd.e").toList

/-- The member that is asked for on the value is one of the other class. -/
theorem inheritance_walks_agree_mutualParents :
    let a := Analysis.ofText mutualParents none {}
    (∀ c, a.table.Ancestor "A" c → a.table.IsPlainClass c) ∧ a.WalksAgree "A" ∧
      (a.table.inheritedMember? "A" "eat").map (·.form) = some .function ∧
      ∃ receiver memo, a.document.askedMember? ⟨6, 3⟩ = some (receiver, "e") ∧
        a.packageOf? receiver 6 = none ∧
        (a.inferTokens receiver 6).after {} = (.ok (.named "A" []), memo) := by
  intro a
  have hchecked : (∀ c ∈ a.table.lineage "A", a.table.IsPlainClass c) ∧
      (a.table.inheritedMember? "A" "eat").map (·.form) = some .function ∧
      a.document.askedMember? ⟨6, 3⟩ = some ([⟨.identifier, "d", 6, 0, true⟩], "e") ∧
      (a.packageOf? [⟨.identifier, "d", 6, 0, true⟩] 6).isNone = true ∧
      (a.inferTokens [⟨.identifier, "d", 6, 0, true⟩] 6).answer.toOption.any
        (Ty.same (.simple "A")) = true := by
    decide +kernel
  obtain ⟨hplain, heat, hasked, hpackage, htype⟩ := hchecked
  have hchain (c : String) (hc : a.table.Ancestor "A" c) : a.table.IsPlainClass c :=
    hplain c (DeclarationTable.mem_lineage.2 hc)
  exact ⟨hchain, inheritance_walks_agree mutualParents none {} "A" hchain, heat, _, _, hasked,
    Option.isNone_iff_eq_none.1 hpackage, Prod.ext (eq_ok_simple_of_same htype) rfl⟩

/-- A class inside a function, a package of the same name, and a receiver where only the package is
in scope. -/
def hiddenClass : List Char :=
  "def f():\nclass Math:\ndef area() -> Int:\nend\nend\nend\nMath.".toList

/-- A package with one function. -/
def mathPackage : Catalog where
  packages := [⟨.str "Math", "", [⟨"twice", [], "Float", "", .str "Math"⟩], []⟩]

/-- The receiver has the type of the class, and it is the function of the package that is offered
behind it. -/
theorem package_hides_class :
    let a := Analysis.ofText hiddenClass none mathPackage
    (∀ c, a.table.Ancestor "Math" c → a.table.IsPlainClass c) ∧
      (a.table.inheritedMember? "Math" "area").map (·.form) = some .function ∧
      a.table.inheritedMember? "Math" "twice" = none ∧ a.catalog.type? "Math" = none ∧
      a.document.askedMember? ⟨6, 5⟩ = some ([⟨.identifier, "Math", 6, 0, true⟩], "") ∧
      (a.inferTokens [⟨.identifier, "Math", 6, 0, true⟩] 6).answer = .ok (.named "Math" []) ∧
      (a.complete ⟨6, 5⟩).answer =
        .ok [⟨"twice", .function, "Math.twice() -> Float", none⟩] := by
  intro a
  have hchecked : (∀ c ∈ a.table.lineage "Math", a.table.IsPlainClass c) ∧
      (a.table.inheritedMember? "Math" "area").map (·.form) = some .function ∧
      (a.table.inheritedMember? "Math" "twice").isNone = true ∧
      (a.catalog.type? "Math").isNone = true ∧
      a.document.askedMember? ⟨6, 5⟩ = some ([⟨.identifier, "Math", 6, 0, true⟩], "") ∧
      (a.inferTokens [⟨.identifier, "Math", 6, 0, true⟩] 6).answer.toOption.any
        (Ty.same (.simple "Math")) = true ∧
      (a.complete ⟨6, 5⟩).answer.toOption =
        some [⟨"twice", .function, "Math.twice() -> Float", none⟩] := by
    decide +kernel
  obtain ⟨hplain, harea, htwice, hbuiltin, hasked, htype, hoffered⟩ := hchecked
  exact ⟨fun c hc => hplain c (DeclarationTable.mem_lineage.2 hc), harea,
    Option.isNone_iff_eq_none.1 htwice, Option.isNone_iff_eq_none.1 hbuiltin, hasked,
    eq_ok_simple_of_same htype, eq_ok_of_toOption hoffered⟩

end Analysis

end Polyloft
