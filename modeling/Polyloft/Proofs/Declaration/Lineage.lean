import Polyloft.Inference.Expression

/-!
# Polyloft.Proofs.Declaration.Lineage

The lineage of a class-like is the list of names met when going from it to its parent, the parent's
parent and so on; it stops at a name that is not declared or was met before. The program never
makes this list. It has three walks, each with a guard of its own: one asks whether the name it
comes to was met, one asks before it goes on to a parent, and one asks about the declaration it has
found. All three go along the lineage: the first two look for a member there
(`inheritedMember?_eq_findSome?`, `memberSource?_eq_findSome?`), the third collects the members of
its class-likes (`inheritedMembers_eq_flatMap`).

## Proof shape

The lineage from a name that was not met is the name and, if it has a parent, the lineage from there
with one more name met (`lineageFrom_of_parent`). Each walk takes the same step, so that the
inductions follow the walks' own recursions.
-/

namespace Polyloft

namespace DeclarationTable

variable (table : DeclarationTable)

/-- The names met from `name` on, when those in `seen` were met before. -/
def lineageFrom (seen : List String) (name : String) : List String :=
  if hname : name ∈ seen then []
  else
    match h : table.classLike? name with
    | none => [name]
    | some d =>
      have := table.unseenCount_cons_lt hname h
      match d.parent with
      | none => [name]
      | some parent => name :: lineageFrom (name :: seen) parent
termination_by table.unseenCount seen

/-- The names from a class-like through its parents, nearest first. -/
def lineage (name : String) : List String :=
  table.lineageFrom [] name

/-- The class-likes from one through its parents, nearest first. -/
def classLikes (name : String) : List Declaration :=
  (table.lineage name).filterMap table.classLike?

/-! ### One step -/

variable {table} {seen : List String} {name parent : String} {d : Declaration}

theorem lineageFrom_of_mem (h : name ∈ seen) : table.lineageFrom seen name = [] := by
  rw [lineageFrom, dif_pos h]

theorem lineageFrom_of_undeclared (hname : name ∉ seen) (h : table.classLike? name = none) :
    table.lineageFrom seen name = [name] := by
  rw [lineageFrom, dif_neg hname]
  split
  · rfl
  · rename_i d hd
    rw [h] at hd
    exact absurd hd (by simp)

theorem lineageFrom_of_root (hname : name ∉ seen) (h : table.classLike? name = some d)
    (hroot : d.parent = none) : table.lineageFrom seen name = [name] := by
  rw [lineageFrom, dif_neg hname]
  split
  · rfl
  · rename_i e he
    obtain rfl := Option.some.inj (h.symm.trans he)
    simp only [hroot]

theorem lineageFrom_of_parent (hname : name ∉ seen) (h : table.classLike? name = some d)
    (hparent : d.parent = some parent) :
    table.lineageFrom seen name = name :: table.lineageFrom (name :: seen) parent := by
  rw [lineageFrom, dif_neg hname]
  split
  · rename_i hnone
    rw [h] at hnone
    exact absurd hnone (by simp)
  · rename_i e he
    obtain rfl := Option.some.inj (h.symm.trans he)
    simp only [hparent]

/-- A name that was not met is the first of its lineage. -/
theorem exists_lineageFrom_eq_cons (table : DeclarationTable) (hname : name ∉ seen) :
    ∃ more, table.lineageFrom seen name = name :: more := by
  cases h : table.classLike? name with
  | none => exact ⟨[], lineageFrom_of_undeclared hname h⟩
  | some d =>
      cases hparent : d.parent with
      | none => exact ⟨[], lineageFrom_of_root hname h hparent⟩
      | some parent => exact ⟨_, lineageFrom_of_parent hname h hparent⟩

/-- A lineage has no name twice, and none that was met before it. -/
theorem nodup_lineageFrom (table : DeclarationTable) (seen : List String) (name : String) :
    (table.lineageFrom seen name).Nodup ∧ ∀ c ∈ table.lineageFrom seen name, c ∉ seen := by
  fun_induction lineageFrom table seen name with
  | case1 seen name hname => simp
  | case2 seen name hname hnone => simpa using hname
  | case3 seen name hname d hd hlt hparent => simpa using hname
  | case4 seen name hname d hd hlt parent hparent ih =>
      obtain ⟨hnodup, hfresh⟩ := ih
      refine ⟨List.nodup_cons.2 ⟨?_, hnodup⟩, ?_⟩
      · intro hmem
        exact hfresh name hmem (List.mem_cons_self ..)
      · intro c hc
        rcases List.mem_cons.1 hc with rfl | hc
        · exact hname
        · exact fun hseen => hfresh c hc (List.mem_cons_of_mem _ hseen)

/-- No class-like is met twice on the way to its parents. -/
theorem nodup_lineage (table : DeclarationTable) (name : String) : (table.lineage name).Nodup :=
  (table.nodup_lineageFrom [] name).1

/-! ### The three walks -/

variable (table)

theorem inheritedMemberFrom?_eq_findSome? (m : String) (seen : List String) (name : String) :
    table.inheritedMemberFrom? m seen name =
      (table.lineageFrom seen name).findSome? fun c => table.member? c m := by
  fun_induction inheritedMemberFrom? table m seen name with
  | case1 seen name hseen => rw [lineageFrom_of_mem hseen, List.findSome?_nil]
  | case2 seen name hfresh d hd =>
      obtain ⟨more, hmore⟩ := table.exists_lineageFrom_eq_cons hfresh
      rw [hmore, List.findSome?_cons, hd]
  | case3 seen name hfresh hd hnone =>
      rw [lineageFrom_of_undeclared hfresh hnone, List.findSome?_cons, hd, List.findSome?_nil]
  | case4 seen name hfresh hd klass hklass _ hroot =>
      rw [lineageFrom_of_root hfresh hklass hroot, List.findSome?_cons, hd, List.findSome?_nil]
  | case5 seen name hfresh hd klass hklass _ parent hparent ih =>
      rw [lineageFrom_of_parent hfresh hklass hparent, List.findSome?_cons, hd, ih]

/-- A member is declared by the first name of the lineage that declares one. -/
theorem inheritedMember?_eq_findSome? (owner m : String) :
    table.inheritedMember? owner m = (table.lineage owner).findSome? fun c => table.member? c m :=
  table.inheritedMemberFrom?_eq_findSome? m [] owner

theorem inheritedMembersFrom_eq_flatMap (seen : List String) (name : String) :
    table.inheritedMembersFrom seen name =
      ((table.lineageFrom seen name).filterMap table.classLike?).flatMap fun c =>
        table.members c.name := by
  fun_induction inheritedMembersFrom table seen name with
  | case1 seen name hnone =>
      -- The lineage may list a name that is not declared; no class-like has it.
      by_cases hseen : name ∈ seen
      · rw [lineageFrom_of_mem hseen, List.filterMap_nil, List.flatMap_nil]
      · rw [lineageFrom_of_undeclared hseen hnone, List.filterMap_cons_none hnone,
          List.filterMap_nil, List.flatMap_nil]
  | case2 seen name klass hklass hseen =>
      rw [name_of_classLike? hklass] at hseen
      rw [lineageFrom_of_mem hseen, List.filterMap_nil, List.flatMap_nil]
  | case3 seen name klass hklass hfresh _ ih =>
      rw [name_of_classLike? hklass] at hfresh ih
      cases hparent : klass.parent with
      | none =>
          rw [lineageFrom_of_root hfresh hklass hparent, List.filterMap_cons_some hklass,
            List.filterMap_nil, List.flatMap_cons, List.flatMap_nil]
      | some parent =>
          rw [lineageFrom_of_parent hfresh hklass hparent, List.filterMap_cons_some hklass,
            List.flatMap_cons, name_of_classLike? hklass]
          exact congrArg _ (ih parent)

/-- The members that are collected are those of the class-likes of the lineage. -/
theorem inheritedMembers_eq_flatMap (owner : String) :
    table.inheritedMembers owner =
      (table.classLikes owner).flatMap fun c => table.members c.name :=
  table.inheritedMembersFrom_eq_flatMap [] owner

theorem memberSourceFrom?_eq_findSome? (m : String) (seen : List String) (name : String)
    (hfresh : name ∉ seen) :
    table.memberSourceFrom? m seen name hfresh =
      ((table.lineageFrom seen name).filterMap table.classLike?).findSome?
        (table.ownMember? · m) := by
  fun_induction memberSourceFrom? table m seen name hfresh with
  | case1 seen name hfresh hnone =>
      rw [lineageFrom_of_undeclared hfresh hnone, List.filterMap_cons_none hnone,
        List.filterMap_nil, List.findSome?_nil]
  | case2 seen name hfresh klass hklass source hsource =>
      obtain ⟨more, hmore⟩ := table.exists_lineageFrom_eq_cons hfresh
      rw [hmore, List.filterMap_cons_some hklass, List.findSome?_cons, hsource]
  | case3 seen name hfresh klass hklass hsource hroot =>
      rw [lineageFrom_of_root hfresh hklass hroot, List.filterMap_cons_some hklass,
        List.findSome?_cons, hsource, List.filterMap_nil, List.findSome?_nil]
  | case4 seen name hfresh klass hklass hsource parent hparent hmet =>
      -- The parent was met, which the lineage finds out one step later.
      rw [lineageFrom_of_parent hfresh hklass hparent, List.filterMap_cons_some hklass,
        List.findSome?_cons, hsource, lineageFrom_of_mem hmet, List.filterMap_nil,
        List.findSome?_nil]
  | case5 seen name hfresh klass hklass hsource parent hparent hmet _ ih =>
      rw [lineageFrom_of_parent hfresh hklass hparent, List.filterMap_cons_some hklass,
        List.findSome?_cons, hsource, ih]

/-- The type of a member comes from the first class-like of the lineage that has one by itself. -/
theorem memberSource?_eq_findSome? (owner m : String) :
    table.memberSource? owner m = (table.classLikes owner).findSome? (table.ownMember? · m) :=
  table.memberSourceFrom?_eq_findSome? m [] owner List.not_mem_nil

end DeclarationTable

end Polyloft
