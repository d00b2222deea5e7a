import Mathlib.Data.List.Nodup
import Polyloft.Proofs.Declaration.Table
import Polyloft.Proofs.Scope.WellFormed

/-!
# Polyloft.Proofs.Declaration.Visible

Which declaration of a name is meant on a line. A declaration of the name is eligible in a frame if
it may be used on the line: a function or class-like always, a variable from its own line on. The
name means the last eligible variable of the innermost frame that has an eligible declaration, or
else the first eligible declaration there (`chosen_inFrame`). The list of all visible names is made
another way, with the first eligible declaration of each name (`find?_visibleNames`), and the two
name the same frame.

## Proof shape

Both look-ups are folds that carry what was found so far. Each is brought into a form without an
accumulator; then both search the frames around the line for the first one with an eligible
declaration, and only what they take from it differs.
-/

namespace Polyloft

namespace DeclarationTable

variable {table : DeclarationTable} {tree : ScopeTree} {name : String} {line : Int} {frame : Nat}
variable {d e : Declaration} {ds : List Declaration}

/-! ### One frame -/

/-- The declarations of a name that live in a frame and may be used on a line. -/
def eligible (table : DeclarationTable) (name : String) (line : Int) (frame : Nat) :
    List Declaration :=
  (table.inFrame frame).filter fun d => d.name == name && d.reaches line

theorem mem_eligible : d ∈ table.eligible name line frame ↔
    d ∈ table.declarations ∧ d.frame = frame ∧ d.name = name ∧
      (d.isVariable = true → (d.line : Int) ≤ line) := by
  have hreaches : d.reaches line = true ↔ (d.isVariable = true → (d.line : Int) ≤ line) := by
    rw [Declaration.reaches]
    cases d.isVariable <;> simp
  rw [eligible, inFrame, List.mem_filter, List.mem_filter, Bool.and_eq_true, beq_iff_eq,
    beq_iff_eq, hreaches, and_assoc]

/-- A further variable replaces what was found, a further function or class-like does not. -/
theorem chosen_eq_of_found (name : String) (line : Int) (ds : List Declaration)
    (found : Option Declaration) :
    ds.foldl
        (fun found d =>
          if d.name == name && d.reaches line && (found.isNone || d.isVariable) then some d
          else found) found =
      ((ds.filter fun d => d.name == name && d.reaches line).filter
        Declaration.isVariable).getLast?.or
          (found.or (ds.filter fun d => d.name == name && d.reaches line).head?) := by
  induction ds generalizing found with
  | nil => simp
  | cons d ds ih =>
      rw [List.foldl_cons, ih]
      cases hd : d.name == name && d.reaches line with
      | false =>
          rw [Bool.false_and, if_neg Bool.false_ne_true, List.filter_cons_of_neg (by simp [hd])]
      | true =>
          rw [Bool.true_and, List.filter_cons_of_pos (by simp [hd]), List.head?_cons]
          -- A variable is now the last one unless another follows; anything else may be the first.
          cases hvar : d.isVariable with
          | true =>
              rw [Bool.or_true, if_pos rfl, List.filter_cons_of_pos hvar, List.getLast?_cons,
                Option.some_or]
              cases List.getLast? _ <;> rfl
          | false =>
              rw [Bool.or_false, List.filter_cons_of_neg (by simp [hvar])]
              cases found <;> rfl

/-- The last eligible variable is meant, or else the first eligible declaration. -/
theorem chosen_inFrame (table : DeclarationTable) (name : String) (line : Int) (frame : Nat) :
    chosen name line (table.inFrame frame) =
      ((table.eligible name line frame).filter Declaration.isVariable).getLast?.or
        (table.eligible name line frame).head? :=
  chosen_eq_of_found name line _ none

theorem mem_eligible_of_chosen (h : chosen name line (table.inFrame frame) = some d) :
    d ∈ table.eligible name line frame := by
  rw [chosen_inFrame, Option.or_eq_some_iff] at h
  rcases h with h | ⟨-, h⟩
  · exact (List.mem_filter.1 (List.mem_of_getLast? h)).1
  · exact List.mem_of_head? h

theorem chosen_eq_none_iff :
    chosen name line (table.inFrame frame) = none ↔ table.eligible name line frame = [] := by
  rw [chosen_inFrame]
  cases h : table.eligible name line frame <;> simp

/-! ### All frames -/

/-- What is looked up stands in the innermost frame that has an eligible declaration. -/
theorem visible?_eq_some_iff : table.visible? name line tree = some d ↔
    ∃ inner f outer, tree.around line = inner ++ f :: outer ∧
      chosen name line (table.inFrame f.id) = some d ∧
        ∀ g ∈ inner, table.eligible name line g.id = [] := by
  simp only [visible?, List.findSome?_eq_some_iff, chosen_eq_none_iff]

theorem visibleNames_eq (table : DeclarationTable) (line : Int) (tree : ScopeTree) :
    table.visibleNames line tree =
      ((tree.around line).flatMap fun f => table.inFrame f.id).foldl (listed (·.reaches line)) [] :=
  rfl

/-- The listed declaration of a name is the first eligible one of the innermost frame that has an
eligible declaration. -/
theorem find?_visibleNames (table : DeclarationTable) (name : String) (line : Int)
    (tree : ScopeTree) : (table.visibleNames line tree).find? (·.name == name) =
      (tree.around line).findSome? fun f => (table.eligible name line f.id).head? := by
  rw [visibleNames_eq, find?_foldl_listed, List.find?_nil, Option.none_or, List.find?_flatMap]
  simp only [eligible, List.head?_filter]

theorem nodup_visibleNames (table : DeclarationTable) (line : Int) (tree : ScopeTree) :
    ((table.visibleNames line tree).map Declaration.name).Nodup :=
  List.foldlRecOn (motive := fun found : List Declaration => (found.map Declaration.name).Nodup)
    _ _ List.nodup_nil fun _ h d _ => nodup_listed h (·.reaches line) d

/-- No name is listed twice, so the listed declaration of a name is the one that is listed first. -/
theorem find?_of_mem_visibleNames (h : e ∈ table.visibleNames line tree) (hname : e.name = name) :
    (table.visibleNames line tree).find? (·.name == name) = some e := by
  obtain ⟨e', he'⟩ : ∃ e', (table.visibleNames line tree).find? (·.name == name) = some e' :=
    Option.isSome_iff_exists.1 (List.find?_isSome.2 ⟨e, h, beq_iff_eq.2 hname⟩)
  have hname' : (e'.name == name) = true :=
    List.find?_some (p := fun d : Declaration => d.name == name) he'
  rw [he', List.inj_on_of_nodup_map (table.nodup_visibleNames line tree)
    (List.mem_of_find?_eq_some he') h ((beq_iff_eq.1 hname').trans hname.symm)]

/-! ### The two look-ups -/

/-- What the look-up of one name and the list of all names say about a name on a line. -/
structure Scoped (table : DeclarationTable) (tree : ScopeTree) (line : Int) (name : String) :
    Prop where
  /-- What is found bears the name, may be used on the line and lives in a frame around the line;
  no frame inside of that one has a declaration that could be meant. -/
  sound : ∀ d, table.visible? name line tree = some d →
    d ∈ table.declarations ∧ d.name = name ∧ (d.isVariable = true → (d.line : Int) ≤ line) ∧
      ∃ inner f outer, tree.around line = inner ++ f :: outer ∧ d.frame = f.id ∧
        f.encloses line = true ∧ ∀ g ∈ inner, table.eligible name line g.id = []
  /-- Nothing is found only where no frame around the line has a declaration that could be meant. -/
  complete : table.visible? name line tree = none ↔
    ∀ f ∈ tree.around line, table.eligible name line f.id = []
  distinct : ((table.visibleNames line tree).map Declaration.name).Nodup
  listed_iff : name ∈ (table.visibleNames line tree).map Declaration.name ↔
    table.visible? name line tree ≠ none
  /-- Both take the name from the same frame, and the same declaration if there is no other. -/
  agree : ∀ d e, table.visible? name line tree = some d → e ∈ table.visibleNames line tree →
    e.name = name →
      e.frame = d.frame ∧ ((table.eligible name line d.frame).length = 1 → e = d)

theorem visible?_eq_none_iff : table.visible? name line tree = none ↔
    ∀ f ∈ tree.around line, table.eligible name line f.id = [] := by
  simp only [visible?, List.findSome?_eq_none_iff, chosen_eq_none_iff]

theorem mem_names_iff : name ∈ (table.visibleNames line tree).map Declaration.name ↔
    table.visible? name line tree ≠ none := by
  have hfind : (table.visibleNames line tree).find? (·.name == name) = none ↔
      table.visible? name line tree = none := by
    simp only [find?_visibleNames, List.findSome?_eq_none_iff, List.head?_eq_none_iff,
      visible?_eq_none_iff]
  rw [Ne, ← hfind, List.find?_eq_none, List.mem_map]
  simp

/-- The listed declaration is eligible where the name is found. -/
theorem mem_eligible_of_listed (hd : table.visible? name line tree = some d)
    (he : e ∈ table.visibleNames line tree) (hname : e.name = name) :
    e ∈ table.eligible name line d.frame := by
  obtain ⟨inner, f, outer, haround, hchosen, hinner⟩ := visible?_eq_some_iff.1 hd
  have hmem := mem_eligible_of_chosen hchosen
  have hnone : (inner.findSome? fun g => (table.eligible name line g.id).head?) = none :=
    List.findSome?_eq_none_iff.2 fun g hg => by rw [hinner g hg]; rfl
  have hfind := find?_of_mem_visibleNames he hname
  rw [find?_visibleNames, haround, List.findSome?_append, hnone, Option.none_or,
    List.findSome?_cons] at hfind
  rw [(mem_eligible.1 hmem).2.1]
  cases hhead : (table.eligible name line f.id).head? with
  | none =>
      rw [List.head?_eq_none_iff.1 hhead] at hmem
      cases hmem
  | some x =>
      rw [hhead] at hfind
      exact List.mem_of_head? (hhead.trans hfind)

/-- Look-up is sound and its two forms agree: in every text, for every table, line and name. -/
theorem scoped_build (text : List Char) (uri : Option String) (table : DeclarationTable)
    (line : Int) (name : String) :
    table.Scoped (ScopeTree.build (Document.ofText text uri)) line name where
  sound := by
    intro d hd
    obtain ⟨inner, f, outer, haround, hchosen, hinner⟩ := visible?_eq_some_iff.1 hd
    obtain ⟨hmem, hframe, hname, hvariable⟩ := mem_eligible.1 (mem_eligible_of_chosen hchosen)
    have haround' : f ∈ (ScopeTree.build (Document.ofText text uri)).around line := by
      rw [haround]
      exact List.mem_append_right _ List.mem_cons_self
    exact ⟨hmem, hname, hvariable, inner, f, outer, haround, hframe,
      ScopeTree.encloses_of_mem_around (Document.isNumbered_ofText text uri) haround', hinner⟩
  complete := visible?_eq_none_iff
  distinct := table.nodup_visibleNames line _
  listed_iff := mem_names_iff
  agree := by
    intro d e hd he hname
    have hlisted := mem_eligible_of_listed hd he hname
    refine ⟨(mem_eligible.1 hlisted).2.1, fun hone => ?_⟩
    obtain ⟨x, hx⟩ := List.length_eq_one_iff.1 hone
    obtain ⟨inner, f, outer, haround, hchosen, hinner⟩ := visible?_eq_some_iff.1 hd
    have hfound := mem_eligible_of_chosen hchosen
    rw [← (mem_eligible.1 hfound).2.1, hx, List.mem_singleton] at hfound
    rw [hx, List.mem_singleton] at hlisted
    rw [hlisted, hfound]

end DeclarationTable

end Polyloft
