import Polyloft.Proofs.Inference.Total
import Polyloft.Query.Completion
import Polyloft.Query.Definition
import Polyloft.Query.Hover

/-!
# Polyloft.Proofs.Query.Total

Queries always have an answer, at every position and whatever the resolver does. A receiver has a
well-formed type, so the types whose members are looked up have names; the declarations that are
found stand in the table, so there are lines above them to read comments from.
-/

namespace Polyloft

open Infer

/-! ### Look-ups -/

theorem DeclarationTable.mem_of_inheritedMember? {table : DeclarationTable} {owner name : String}
    {d : Declaration} (h : table.inheritedMember? owner name = some d) :
    d ∈ table.declarations := by
  rw [inheritedMember?_eq_findSome?] at h
  obtain ⟨c, -, hmember⟩ := List.exists_of_findSome?_eq_some h
  exact List.mem_of_find?_eq_some hmember

theorem DeclarationTable.mem_of_mem_visibleNames {table : DeclarationTable} {line : Int}
    {tree : ScopeTree} {d : Declaration} (h : d ∈ table.visibleNames line tree) :
    d ∈ table.declarations := by
  have hsub : ∀ e ∈ (tree.around line).flatMap fun f => table.inFrame f.id,
      e ∈ table.declarations := by
    intro e he
    obtain ⟨f, -, he⟩ := List.mem_flatMap.1 he
    exact (List.mem_filter.1 he).1
  revert d
  unfold visibleNames
  refine List.foldlRecOn (motive := fun found => ∀ {d : Declaration}, d ∈ found →
    d ∈ table.declarations) _ _ (by simp) ?_
  intro found hfound e he d hd
  split at hd
  · exact hfound hd
  · rcases List.mem_append.1 hd with hd | hd
    · exact hfound hd
    · rw [List.mem_singleton.1 hd]
      exact hsub e he

namespace Analysis

variable {a : Analysis}

theorem mem_of_topLevel? {word : String} {line : Int} {d : Declaration}
    (h : a.topLevel? word line = some d) : d ∈ a.table.declarations := by
  rcases Option.or_eq_some_iff.1 h with h | ⟨-, h⟩
  · exact DeclarationTable.mem_of_visible? (Option.filter_eq_some_iff.1 h).1
  · rcases Option.or_eq_some_iff.1 h with h | ⟨-, h⟩
    · exact List.mem_of_find?_eq_some h
    · exact List.mem_of_find?_eq_some (Option.filter_eq_some_iff.1 h).1

/-- An imported declaration stands in the table of the module it comes from. -/
theorem isRead_of_imported? {word : String} {resolver : Resolver} {i : ImportedDeclaration}
    (h : a.imported? word resolver = some i) :
    i.module.IsRead ∧ ∀ d, i.declaration = some d → d ∈ i.module.table.declarations := by
  obtain ⟨symbol, -, h⟩ := Option.bind_eq_some_iff.1 h
  obtain ⟨source, -, rfl⟩ := Option.map_eq_some_iff.1 h
  refine ⟨isRead_ofText _ _ _, ?_⟩
  intro d hd
  rcases Option.or_eq_some_iff.1 hd with hd | ⟨-, hd⟩
  · exact List.mem_of_find?_eq_some hd
  · exact List.mem_of_find?_eq_some hd

/-- There are lines above a declaration. -/
theorem exists_commentAbove_eq_ok (ha : a.IsRead) {d : Declaration}
    (hd : d ∈ a.table.declarations) : ∃ text, a.document.commentAbove d.line = .ok text := by
  have hline := ha.line_lt hd
  rw [Document.commentAbove, if_neg (by omega)]
  exact ⟨_, rfl⟩

theorem returns_commentAbove (ha : a.IsRead) {d : Declaration} (hd : d ∈ a.table.declarations) :
    Returns (fun _ => True) (Infer.ofExcept (a.document.commentAbove d.line)) := by
  obtain ⟨text, htext⟩ := exists_commentAbove_eq_ok ha hd
  exact .ofExcept ⟨text, htext, trivial⟩

/-! ### Hover -/

theorem returns_declarationHover (ha : a.IsRead) {d : Declaration}
    (hd : d ∈ a.table.declarations) : Returns (fun _ => True) (a.declarationHover d) := by
  refine .bind (returns_signature ha hd) ?_
  intro signature _
  refine .bind (returns_commentAbove ha hd) ?_
  intro documentation _
  exact .pure trivial

theorem returns_some_declarationHover (ha : a.IsRead) {d : Declaration}
    (hd : d ∈ a.table.declarations) :
    Returns (fun _ => True) (some <$> a.declarationHover d) :=
  (returns_declarationHover ha hd).map fun _ _ => trivial

theorem returns_namedMemberHover (ha : a.IsRead) (type : Ty) (name word : String) :
    Returns (fun _ => True) (a.namedMemberHover type name word) := by
  unfold namedMemberHover
  split
  · exact .pure trivial
  · split
    · rename_i d hd
      exact returns_some_declarationHover ha (DeclarationTable.mem_of_inheritedMember? hd)
    · split
      · exact .pure trivial
      · exact .pure trivial

theorem returns_memberHover (ha : a.IsRead) (word : String) {types : List Ty}
    (h : ∀ t ∈ types, t.isNamed = true) : Returns (fun _ => True) (a.memberHover word types) := by
  induction types with
  | nil => exact .pure trivial
  | cons t types ih =>
      have ih := ih fun s hs => h s (List.mem_cons_of_mem _ hs)
      have hnamed := h t (List.mem_cons_self ..)
      cases t with
      | any => simp [Ty.isNamed] at hnamed
      | union members => simp [Ty.isNamed] at hnamed
      | named name args =>
          -- Members are looked up by the name of the type, and the first type that has one counts.
          rw [memberHover]
          refine .bind (returns_namedMemberHover ha _ name word) ?_
          intro found _
          split
          · exact .pure trivial
          · exact ih

theorem returns_receiverHover (ha : a.IsRead) (receiver : List Token) (word : String)
    (line : Int) : Returns (fun _ => True) (a.receiverHover receiver word line) := by
  unfold receiverHover
  split
  · exact .pure trivial
  · refine .bind (returns_inferTokens ha receiver line) ?_
    intro type htype
    exact returns_memberHover ha word fun s hs => (htype.named_of_mem_alternatives hs).1

/-- Whatever the resolver does, an imported word is shown or not found. -/
theorem exists_importedHover?_eq_ok (a : Analysis) (word : String) (resolver : Resolver) :
    ∃ found, a.importedHover? word resolver = .ok found := by
  unfold importedHover?
  split
  · exact ⟨none, rfl⟩
  · -- The module has a memo of its own, which starts empty.
    rename_i i hi
    obtain ⟨hmodule, hdeclared⟩ := isRead_of_imported? hi
    split
    · exact ⟨none, rfl⟩
    · rename_i d hd
      obtain ⟨shown, hshown, -⟩ :=
        (returns_declarationHover hmodule (hdeclared d hd)).exists_answer_eq_ok
      rw [hshown]
      exact ⟨some shown, rfl⟩

theorem returns_plainHover (ha : a.IsRead) (word : String) (line : Int) (resolver : Resolver) :
    Returns (fun _ => True) (a.plainHover word line resolver) := by
  unfold plainHover
  split
  · exact .pure trivial
  · split
    · exact .pure trivial
    · split
      · rename_i d hd
        exact returns_some_declarationHover ha (mem_of_topLevel? hd)
      · obtain ⟨found, hfound⟩ := exists_importedHover?_eq_ok a word resolver
        refine .bind (P := fun _ => True) (.ofExcept ⟨found, hfound, trivial⟩) ?_
        intro found _
        split
        · exact .pure trivial
        · split
          · rename_i d hd
            exact returns_some_declarationHover ha (DeclarationTable.mem_of_visible? hd)
          · exact .pure trivial

/-- Hover has an answer at every position. -/
theorem returns_hover (ha : a.IsRead) (position : Position) (word : Option String)
    (resolver : Resolver) : Returns (fun _ => True) (a.hover position word resolver) := by
  unfold hover
  split
  · exact .pure trivial
  · split
    · exact returns_receiverHover ha _ _ _
    · exact returns_plainHover ha _ _ resolver

/-! ### Definition -/

theorem exists_memberOf?_eq_ok (word : String) {types : List Ty}
    (h : ∀ t ∈ types, t.isNamed = true) : ∃ found, a.memberOf? word types = .ok found := by
  induction types with
  | nil => exact ⟨none, rfl⟩
  | cons t types ih =>
      have ih := ih fun s hs => h s (List.mem_cons_of_mem _ hs)
      have hnamed := h t (List.mem_cons_self ..)
      cases t with
      | any => simp [Ty.isNamed] at hnamed
      | union members => simp [Ty.isNamed] at hnamed
      | named name args =>
          rw [memberOf?]
          split
          · exact ⟨_, rfl⟩
          · exact ih

/-- Going to a definition has an answer at every position. -/
theorem returns_definition (ha : a.IsRead) (position : Position) (word : Option String)
    (resolver : Resolver) : Returns (fun _ => True) (a.definition position word resolver) := by
  unfold definition
  split
  · exact .pure trivial
  · rename_i word start _
    split
    · rename_i receiver _
      refine .bind (returns_inferTokens ha receiver position.line) ?_
      intro type htype
      obtain ⟨found, hfound⟩ := exists_memberOf?_eq_ok (a := a) word
        fun s hs => (htype.named_of_mem_alternatives hs).1
      refine .bind (P := fun _ => True) (.ofExcept ⟨found, hfound, trivial⟩) ?_
      intro member _
      exact .pure trivial
    · exact .pure trivial

/-! ### Completion -/

theorem exists_memberItem?_eq_ok (ha : a.IsRead) {d : Declaration}
    (hd : d ∈ a.table.declarations) : ∃ item, a.memberItem? d = .ok item := by
  unfold memberItem?
  split
  · exact ⟨none, rfl⟩
  · obtain ⟨text, htext⟩ := exists_commentAbove_eq_ok ha hd
    rw [htext]
    simp only [bind, Except.bind]
    split <;> exact ⟨_, rfl⟩

theorem exists_typeItems_eq_ok (ha : a.IsRead) {type : Ty} (h : type.isNamed = true) :
    ∃ items, a.typeItems type = .ok items := by
  cases type with
  | any => simp [Ty.isNamed] at h
  | union members => simp [Ty.isNamed] at h
  | named name args =>
      have hdeclared : ∃ items,
          (a.table.inheritedMembers name).mapM a.memberItem? = .ok items := by
        refine exists_mapM_eq_ok ?_
        intro d hd
        rw [DeclarationTable.inheritedMembers_eq_flatMap] at hd
        obtain ⟨c, -, hd⟩ := List.mem_flatMap.1 hd
        exact exists_memberItem?_eq_ok ha (List.mem_filter.1 hd).1
      obtain ⟨items, hitems⟩ := hdeclared
      rw [typeItems, hitems]
      exact ⟨_, rfl⟩

theorem returns_memberItems (ha : a.IsRead) (receiver : List Token) (line : Int) :
    Returns (fun _ => True) (a.memberItems receiver line) := by
  unfold memberItems
  split
  · exact .pure trivial
  · refine .bind (returns_inferTokens ha receiver line) ?_
    intro type htype
    have hitems : ∃ items, type.alternatives.mapM a.typeItems = .ok items := by
      refine exists_mapM_eq_ok ?_
      intro s hs
      exact exists_typeItems_eq_ok ha (htype.named_of_mem_alternatives hs).1
    obtain ⟨items, hitems⟩ := hitems
    refine .bind (P := fun _ => True) (.ofExcept ⟨items, hitems, trivial⟩) ?_
    intro items _
    exact .pure trivial

theorem returns_scopeItem (ha : a.IsRead) {d : Declaration} (hd : d ∈ a.table.declarations) :
    Returns (fun _ => True) (a.scopeItem d) := by
  unfold scopeItem
  refine .bind (returns_commentAbove ha hd) ?_
  intro documentation _
  split
  · exact .pure trivial
  · refine .bind (returns_signature ha hd) ?_
    intro signature _
    exact .pure trivial
  · split
    · exact .pure trivial
    · split
      · exact .pure trivial
      · exact .pure trivial

theorem exists_catalogItems_eq_ok {catalog : Catalog}
    (h : ∀ p ∈ catalog.packages, ∃ name, p.name = .str name) :
    ∃ items, catalogItems catalog = .ok items := by
  have hpackages : ∃ items, catalog.packages.mapM CompletionItem.ofPackage = .ok items := by
    refine exists_mapM_eq_ok ?_
    intro p hp
    obtain ⟨name, hname⟩ := h p hp
    rw [CompletionItem.ofPackage, hname]
    exact ⟨_, rfl⟩
  obtain ⟨items, hitems⟩ := hpackages
  rw [catalogItems, hitems]
  exact ⟨_, rfl⟩

theorem returns_scopeItems (ha : a.IsRead)
    (h : ∀ p ∈ a.catalog.packages, ∃ name, p.name = .str name) (line : Int) :
    Returns (fun _ => True) (a.scopeItems line) := by
  unfold scopeItems
  obtain ⟨items, hitems⟩ := exists_catalogItems_eq_ok h
  refine .bind (P := fun _ => True) (.ofExcept ⟨items, hitems, trivial⟩) ?_
  intro provided _
  refine .bind (Returns.mapM (Q := fun _ => True) ?_) fun _ _ => .pure trivial
  intro d hd
  exact returns_scopeItem ha (DeclarationTable.mem_of_mem_visibleNames (List.mem_filter.1 hd).1)

/-- Completion has an answer at every position, if packages are named by texts. -/
theorem returns_complete (ha : a.IsRead)
    (h : ∀ p ∈ a.catalog.packages, ∃ name, p.name = .str name) (position : Position) :
    Returns (fun _ => True) (a.complete position) := by
  unfold complete
  split
  · exact .pure trivial
  · dsimp only
    split
    · exact (returns_scopeItems ha h _).bind fun _ _ => .pure trivial
    · split
      · exact .pure trivial
      · exact (returns_memberItems ha _ _).bind fun _ _ => .pure trivial

end Analysis

end Polyloft
