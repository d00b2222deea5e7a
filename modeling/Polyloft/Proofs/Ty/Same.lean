import Mathlib.Data.List.Forall2
import Polyloft.Proofs.Ty.WellFormed

/-!
# Polyloft.Proofs.Ty.Same

Types as they are compared. The members of a union may come in any order and any number of times,
also deep inside of the arguments of a name, and `same` decides whether two types agree up to that.
It is an equivalence relation (`Ty.setoid`), so that lists of types can be compared as sets of
classes: `Within ss ts` says that nothing in `ss` is missing from `ts`, and types that are kept
apart can then be counted (`length_le_of_within`).

## Proof shape

A type holds lists of types, so induction on types gives a hypothesis for each type in such a list
(`Ty.induction`). Everything about `same` goes through two readings of it that speak of these lists
as a whole: pointwise for arguments (`same_named_iff`), by membership for unions (`same_union_iff`).
-/

namespace Polyloft.Ty

/-- Induction on types, with a hypothesis for each argument of a name and each member of a union. -/
@[elab_as_elim, induction_eliminator]
theorem induction {motive : Ty → Prop} (any : motive .any)
    (named : ∀ name args, (∀ t ∈ args, motive t) → motive (.named name args))
    (union : ∀ members, (∀ t ∈ members, motive t) → motive (.union members)) :
    ∀ t, motive t
  | .any => any
  | .named name args => named name args fun t _ => Ty.induction any named union t
  | .union members => union members fun t _ => Ty.induction any named union t

/-- Each of the types `ss` is the same as one of the types `ts`. -/
def Within (ss ts : List Ty) : Prop :=
  ∀ s ∈ ss, ∃ t ∈ ts, same s t = true

/-! ### Readings of equality -/

theorem subsumes_iff {ss ts : List Ty} : subsumes ts ss = true ↔ Within ss ts := by
  induction ss with
  | nil => simp [subsumes, Within]
  | cons s ss ih =>
      rw [subsumes, Bool.and_eq_true, ih, List.any_eq_true, Within, Within, List.forall_mem_cons]

theorem sameAll_iff {ss ts : List Ty} :
    sameAll ss ts = true ↔ List.Forall₂ (fun s t => same s t = true) ss ts := by
  induction ss generalizing ts with
  | nil => cases ts <;> simp [sameAll]
  | cons s ss ih =>
      cases ts with
      | nil => simp [sameAll]
      | cons t ts => rw [sameAll, Bool.and_eq_true, ih, List.forall₂_cons]

theorem same_named_iff {name name' : String} {args args' : List Ty} :
    same (.named name args) (.named name' args') = true ↔
      name = name' ∧ List.Forall₂ (fun s t => same s t = true) args args' := by
  rw [same, Bool.and_eq_true, beq_iff_eq, sameAll_iff]

theorem same_union_iff {members members' : List Ty} :
    same (.union members) (.union members') = true ↔
      Within members members' ∧ ∀ t ∈ members', ∃ s ∈ members, same s t = true := by
  rw [same, Bool.and_eq_true, subsumes_iff, List.all_eq_true]
  simp only [sameAny_iff]

theorem same_any_iff {t : Ty} : same .any t = true ↔ t = .any := by
  cases t <;> simp [same]

/-- Only a name is the same as a name. -/
theorem exists_named_of_same {name : String} {args : List Ty} {t : Ty}
    (h : same (.named name args) t = true) :
    ∃ args', t = .named name args' ∧ List.Forall₂ (fun s t => same s t = true) args args' := by
  cases t with
  | any => simp [same] at h
  | union members => simp [same] at h
  | named name' args' =>
      obtain ⟨rfl, hargs⟩ := same_named_iff.1 h
      exact ⟨args', rfl, hargs⟩

/-- Only a union is the same as a union. -/
theorem exists_union_of_same {members : List Ty} {t : Ty} (h : same (.union members) t = true) :
    ∃ members', t = .union members' ∧ Within members members' ∧
      ∀ t ∈ members', ∃ s ∈ members, same s t = true := by
  cases t with
  | any => simp [same] at h
  | named name args => simp [same] at h
  | union members' => exact ⟨members', rfl, same_union_iff.1 h⟩

/-! ### An equivalence relation -/

theorem same_refl (t : Ty) : same t t = true := by
  induction t with
  | any => rw [same]
  | named name args ih => exact same_named_iff.2 ⟨rfl, List.forall₂_same.2 ih⟩
  | union members ih =>
      exact same_union_iff.2 ⟨fun s hs => ⟨s, hs, ih s hs⟩, fun t ht => ⟨t, ht, ih t ht⟩⟩

theorem same_symm {s t : Ty} (h : same s t = true) : same t s = true := by
  induction s generalizing t with
  | any =>
      obtain rfl := same_any_iff.1 h
      exact h
  | named name args ih =>
      obtain ⟨args', rfl, hargs⟩ := exists_named_of_same h
      have hback := (List.forall₂_and_left args args').2 ⟨ih, hargs⟩
      refine same_named_iff.2 ⟨rfl, List.Forall₂.flip (hback.imp ?_)⟩
      intro s t h
      exact h.1 h.2
  | union members ih =>
      obtain ⟨members', rfl, hto, hfrom⟩ := exists_union_of_same h
      refine same_union_iff.2 ⟨?_, ?_⟩
      · intro t ht
        obtain ⟨s, hs, hst⟩ := hfrom t ht
        exact ⟨s, hs, ih s hs hst⟩
      · intro s hs
        obtain ⟨t, ht, hst⟩ := hto s hs
        exact ⟨t, ht, ih s hs hst⟩

theorem same_trans {s t u : Ty} (hst : same s t = true) (htu : same t u = true) :
    same s u = true := by
  induction s generalizing t u with
  | any =>
      obtain rfl := same_any_iff.1 hst
      exact htu
  | named name args ih =>
      obtain ⟨args', rfl, hargs⟩ := exists_named_of_same hst
      obtain ⟨args'', rfl, hargs'⟩ := exists_named_of_same htu
      refine same_named_iff.2 ⟨rfl, ?_⟩
      have hstep := (List.forall₂_and_left args args').2 ⟨ih, hargs⟩
      clear ih hst htu hargs
      induction hstep generalizing args'' with
      | nil => exact hargs'
      | cons h _ ihargs =>
          obtain ⟨u, us, hu, hus, rfl⟩ := List.forall₂_cons_left_iff.1 hargs'
          exact .cons (h.1 h.2 hu) (ihargs us hus)
  | union members ih =>
      obtain ⟨members', rfl, hto, hfrom⟩ := exists_union_of_same hst
      obtain ⟨members'', rfl, hto', hfrom'⟩ := exists_union_of_same htu
      refine same_union_iff.2 ⟨?_, ?_⟩
      · intro s hs
        obtain ⟨t, ht, hst⟩ := hto s hs
        obtain ⟨u, hu, htu⟩ := hto' t ht
        exact ⟨u, hu, ih s hs hst htu⟩
      · intro u hu
        obtain ⟨t, ht, htu⟩ := hfrom' u hu
        obtain ⟨s, hs, hst⟩ := hfrom t ht
        exact ⟨s, hs, ih s hs hst htu⟩

/-- Types that are the same, as one class. -/
instance setoid : Setoid Ty where
  r s t := same s t = true
  iseqv := ⟨same_refl, same_symm, same_trans⟩

/-! ### Lists of types as sets of classes -/

theorem within_of_subset {ss ts : List Ty} (h : ss ⊆ ts) : Within ss ts :=
  fun s hs => ⟨s, h hs, same_refl s⟩

theorem Within.trans {ss ts us : List Ty} (hst : Within ss ts) (htu : Within ts us) :
    Within ss us := by
  intro s hs
  obtain ⟨t, ht, hst⟩ := hst s hs
  obtain ⟨u, hu, htu⟩ := htu t ht
  exact ⟨u, hu, same_trans hst htu⟩

/-- Two unions are the same if they have the same members. -/
theorem same_union_iff_within {members members' : List Ty} :
    same (.union members) (.union members') = true ↔
      Within members members' ∧ Within members' members := by
  rw [same_union_iff]
  refine and_congr_right fun _ => forall₂_congr fun t _ => ?_
  exact exists_congr fun s => and_congr_right fun _ => ⟨same_symm, same_symm⟩

/-- Types no two of which are the same cannot be more than the types that they are the same as. -/
theorem length_le_of_within {ss ts : List Ty} (hss : ss.Pairwise fun s t => same s t = false)
    (h : Within ss ts) : ss.length ≤ ts.length := by
  have hnodup : (ss.map (Quotient.mk setoid)).Nodup := by
    refine List.pairwise_map.2 (hss.imp fun {s t} hst heq => ?_)
    rw [show same s t = true from Quotient.exact heq] at hst
    simp at hst
  have hsubset : ss.map (Quotient.mk setoid) ⊆ ts.map (Quotient.mk setoid) := by
    intro c hc
    obtain ⟨s, hs, rfl⟩ := List.mem_map.1 hc
    obtain ⟨t, ht, hst⟩ := h s hs
    exact List.mem_map.2 ⟨t, ht, Quotient.sound (same_symm hst)⟩
  simpa using hnodup.length_le_of_subset hsubset

end Polyloft.Ty
