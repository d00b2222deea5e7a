import Polyloft.Declaration

/-!
# Polyloft.Declaration.Lineage

Inheritance. Where a member of a class-like is declared and which members it has are asked of the
class-like, its parent, the parent's parent and so on. Each walk keeps the names that it has met and
ends at one of them, so it is finite for class-likes that inherit from each other in a circle. The
walk that asks for the type of a member is `DeclarationTable.memberSource?`.
-/

namespace Polyloft

namespace DeclarationTable

variable (table : DeclarationTable)

theorem name_of_classLike? {table : DeclarationTable} {name : String} {owner : Declaration}
    (h : table.classLike? name = some owner) : owner.name = name := by
  have := List.find?_some h
  simp only [Bool.and_eq_true, beq_iff_eq] at this
  exact this.2

/-- How many declarations have a name that was not met yet. -/
def unseenCount (seen : List String) : Nat :=
  (table.declarations.filter fun d => d.name ∉ seen).length

/-- Meeting the name of a class-like for the first time leaves fewer names to meet. -/
theorem unseenCount_cons_lt {seen : List String} {name : String} {d : Declaration}
    (hname : name ∉ seen) (h : table.classLike? name = some d) :
    table.unseenCount (name :: seen) < table.unseenCount seen := by
  have hmem : d ∈ table.declarations := List.mem_of_find?_eq_some h
  have hd : d.name = name := name_of_classLike? h
  have hsub : (table.declarations.filter fun d => d.name ∉ name :: seen) =
      (table.declarations.filter fun d => d.name ∉ seen).filter fun d => d.name ≠ name := by
    rw [List.filter_filter]
    congr 1
    funext x
    simp [not_or]
  rw [unseenCount, unseenCount, hsub]
  exact List.length_filter_lt_length_iff_exists.2
    ⟨d, List.mem_filter.2 ⟨hmem, by simpa [hd] using hname⟩, by simp [hd]⟩

/-- The member of a given name of a class-like or of the nearest parent that has one, when those in
`seen` were asked before. -/
def inheritedMemberFrom? (name : String) (seen : List String) (owner : String) :
    Option Declaration :=
  if hfresh : owner ∈ seen then none
  else
    match table.member? owner name with
    | some d => some d
    | none =>
      match h : table.classLike? owner with
      | none => none
      | some klass =>
        have := table.unseenCount_cons_lt hfresh h
        match klass.parent with
        | none => none
        | some parent => inheritedMemberFrom? name (owner :: seen) parent
termination_by table.unseenCount seen

/-- The member of a given name of a class-like or of the nearest parent that has one. -/
def inheritedMember? (owner name : String) : Option Declaration :=
  table.inheritedMemberFrom? name [] owner

/-- The members of a class-like and of its parents, nearest first, up to a class-like in `seen`. -/
def inheritedMembersFrom (seen : List String) (owner : String) : List Declaration :=
  match h : table.classLike? owner with
  | none => []
  | some klass =>
    if hfresh : klass.name ∈ seen then []
    else
      have := table.unseenCount_cons_lt hfresh ((name_of_classLike? h).symm ▸ h)
      table.members klass.name ++
        match klass.parent with
        | none => []
        | some parent => inheritedMembersFrom (klass.name :: seen) parent
termination_by table.unseenCount seen

/-- The members of a class-like and of its parents, nearest first. -/
def inheritedMembers (owner : String) : List Declaration :=
  table.inheritedMembersFrom [] owner

end DeclarationTable

end Polyloft
