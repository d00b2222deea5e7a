import Polyloft.Proofs.Declaration.Column
import Polyloft.Proofs.Inference.Guarded

/-!
# Polyloft.Proofs.Inference.Transparent

On documents without recursion remembering is transparent. If no declaration, looked at first thing,
leads back to a declaration that is being looked at, then every question has the answer that it has
when it is asked first, and that is the answer of `Polyloft.Proofs.Inference.Plain`, where every
type is inferred anew.

## Proof shape

The guarded inference of `Polyloft.Proofs.Inference.Guarded` notes when it meets a declaration
again. As long as it does not, the declarations whose types it has remembered are all that it has
needed: a remembered type is a plain answer, found by entering remembered declarations only
(`Grounded`). The declaration that is being looked at is not among them, and so it can be added
(`during_unmet`). A variable and a function never get in each other's way here because they have
different keys.
-/

namespace Polyloft

/-! ### What is remembered -/

/-- The keys under which something is remembered. -/
def Memo.keys (memo : Memo) : List DeclarationKey :=
  memo.declared.map Prod.fst ++ memo.returned.map Prod.fst

theorem Memo.mem_keys {memo : Memo} {key : DeclarationKey} :
    key ∈ memo.keys ↔
      (∃ t, (key, t) ∈ memo.declared) ∨ ∃ t, (key, t) ∈ memo.returned := by
  simp [Memo.keys]

theorem Memo.keys_addDeclared_subset {memo : Memo} {key : DeclarationKey} {t : Ty}
    {free : List DeclarationKey} :
    (memo.addDeclared key t).keys ⊆ free ↔ key ∈ free ∧ memo.keys ⊆ free := by
  simp [Memo.keys, Memo.addDeclared]

theorem Memo.keys_addReturned_subset {memo : Memo} {key : DeclarationKey} {t : Ty}
    {free : List DeclarationKey} :
    (memo.addReturned key t).keys ⊆ free ↔ key ∈ free ∧ memo.keys ⊆ free := by
  simp only [Memo.keys, Memo.addReturned, List.append_subset, List.map_cons, List.cons_subset]
  constructor
  · rintro ⟨hdeclared, hkey, hreturned⟩
    exact ⟨hkey, hdeclared, hreturned⟩
  · rintro ⟨hkey, hdeclared, hreturned⟩
    exact ⟨hdeclared, hkey, hreturned⟩

theorem not_mem_of_lookup_eq_none {log : List (DeclarationKey × Ty)} {key : DeclarationKey} {t : Ty}
    (h : log.lookup key = none) : (key, t) ∉ log := by
  intro hmem
  have := List.lookup_eq_none_iff.1 h _ hmem
  simp at this

/-- Everything that is remembered is a plain answer that was found by entering only declarations
whose answers are remembered, and none of these is being looked at. -/
structure Progress.Grounded (a : Analysis) (s : Progress) : Prop where
  idle : ∀ key ∈ s.busy, key ∉ s.memo.keys
  declared : ∀ {key : DeclarationKey} {t : Ty}, (key, t) ∈ s.memo.declared →
    ∃ d ∈ a.table.declarations, d.isVariable = true ∧ d.key = key ∧
      ∀ free, s.memo.keys ⊆ free → a.plainVariableIn free d = some t
  returned : ∀ {key : DeclarationKey} {t : Ty}, (key, t) ∈ s.memo.returned →
    ∃ d ∈ a.table.declarations, (a.functionBody? d).isSome = true ∧ d.key = key ∧
      ∀ free, s.memo.keys ⊆ free → a.plainReturnIn free d = some t

namespace Progress.Grounded

variable {a : Analysis} {s : Progress} {d : Declaration} {t : Ty}

theorem keys_subset (h : s.Grounded a) : s.memo.keys ⊆ a.table.keys := by
  intro key hkey
  rcases Memo.mem_keys.1 hkey with ⟨t, hmem⟩ | ⟨t, hmem⟩
  · obtain ⟨d, hd, -, rfl, -⟩ := h.declared hmem
    exact List.mem_map_of_mem hd
  · obtain ⟨d, hd, -, rfl, -⟩ := h.returned hmem
    exact List.mem_map_of_mem hd

/-- A remembered variable has its plain type. -/
theorem plainVariableIn (ha : a.IsRead) (h : s.Grounded a) (hd : d ∈ a.table.declarations)
    (hvar : d.isVariable = true) (hlookup : s.memo.declared.lookup d.key = some t)
    {free : List DeclarationKey} (hfree : s.memo.keys ⊆ free) :
    a.plainVariableIn free d = some t := by
  obtain ⟨e, he, hvar', hkey, hplain⟩ := h.declared (mem_of_lookup_eq_some hlookup)
  have halike := ha.consistent.sourcedAlike hd he hkey.symm hvar hvar'
  rw [Analysis.plainVariableIn_congr hkey.symm halike, hplain free hfree]

/-- A remembered function has its plain return type. -/
theorem plainReturnIn (ha : a.IsRead) (h : s.Grounded a) (hd : d ∈ a.table.declarations)
    (hbody : (a.functionBody? d).isSome = true)
    (hlookup : s.memo.returned.lookup d.key = some t) {free : List DeclarationKey}
    (hfree : s.memo.keys ⊆ free) : a.plainReturnIn free d = some t := by
  obtain ⟨e, he, hbody', hkey, hplain⟩ := h.returned (mem_of_lookup_eq_some hlookup)
  obtain rfl := ha.consistent.eq_of_body hd he hkey.symm (Analysis.body_ne_none hbody)
    (Analysis.body_ne_none hbody')
  exact hplain free hfree

/-- A variable that is not remembered does not share its key with what is. -/
theorem variable_not_mem (ha : a.IsRead) (h : s.Grounded a) (hd : d ∈ a.table.declarations)
    (hvar : d.isVariable = true) (hlookup : s.memo.declared.lookup d.key = none) :
    d.key ∉ s.memo.keys := by
  intro hkey
  rcases Memo.mem_keys.1 hkey with ⟨t, hmem⟩ | ⟨t, hmem⟩
  · exact not_mem_of_lookup_eq_none hlookup hmem
  · obtain ⟨e, he, hbody, hsame, -⟩ := h.returned hmem
    rw [ha.table_eq] at hd he
    exact DeclarationTable.key_ne_of_body ha.isNumbered he hd (Analysis.body_ne_none hbody) hvar
      hsame

/-- A function that is not remembered does not share its key with what is. -/
theorem function_not_mem (ha : a.IsRead) (h : s.Grounded a) (hd : d ∈ a.table.declarations)
    (hbody : (a.functionBody? d).isSome = true)
    (hlookup : s.memo.returned.lookup d.key = none) : d.key ∉ s.memo.keys := by
  intro hkey
  rcases Memo.mem_keys.1 hkey with ⟨t, hmem⟩ | ⟨t, hmem⟩
  · obtain ⟨e, he, hvar, hsame, -⟩ := h.declared hmem
    rw [ha.table_eq] at hd he
    exact DeclarationTable.key_ne_of_body ha.isNumbered hd he (Analysis.body_ne_none hbody) hvar
      hsame.symm
  · exact not_mem_of_lookup_eq_none hlookup hmem

theorem addDeclared (h : s.Grounded a) (hd : d ∈ a.table.declarations)
    (hvar : d.isVariable = true) (hbusy : d.key ∉ s.busy)
    (hplain : ∀ free, d.key ∈ free → s.memo.keys ⊆ free → a.plainVariableIn free d = some t) :
    Grounded a { s with memo := s.memo.addDeclared d.key t } where
  idle := by
    intro key hkey hmem
    rcases List.mem_cons.1 (show key ∈ d.key :: s.memo.keys from hmem) with rfl | hmem
    · exact hbusy hkey
    · exact h.idle key hkey hmem
  declared := by
    intro key u hmem
    rcases List.mem_cons.1 hmem with heq | hmem
    · obtain ⟨rfl, rfl⟩ := Prod.mk.inj heq
      refine ⟨d, hd, hvar, rfl, ?_⟩
      intro free hfree
      obtain ⟨hkey, hrest⟩ := Memo.keys_addDeclared_subset.1 hfree
      exact hplain free hkey hrest
    · obtain ⟨e, he, hvar', hkey, hplain'⟩ := h.declared hmem
      exact ⟨e, he, hvar', hkey, fun free hfree =>
        hplain' free (Memo.keys_addDeclared_subset.1 hfree).2⟩
  returned := by
    intro key u hmem
    obtain ⟨e, he, hbody, hkey, hplain'⟩ := h.returned hmem
    exact ⟨e, he, hbody, hkey, fun free hfree =>
      hplain' free (Memo.keys_addDeclared_subset.1 hfree).2⟩

theorem addReturned (h : s.Grounded a) (hd : d ∈ a.table.declarations)
    (hbody : (a.functionBody? d).isSome = true) (hbusy : d.key ∉ s.busy)
    (hplain : ∀ free, d.key ∈ free → s.memo.keys ⊆ free → a.plainReturnIn free d = some t) :
    Grounded a { s with memo := s.memo.addReturned d.key t } where
  idle := by
    intro key hkey hmem
    have hkeys : (s.memo.addReturned d.key t).keys ⊆ d.key :: s.memo.keys :=
      Memo.keys_addReturned_subset.2 ⟨List.mem_cons_self .., List.subset_cons_self ..⟩
    rcases List.mem_cons.1 (hkeys hmem) with rfl | hmem
    · exact hbusy hkey
    · exact h.idle key hkey hmem
  declared := by
    intro key u hmem
    obtain ⟨e, he, hvar, hkey, hplain'⟩ := h.declared hmem
    exact ⟨e, he, hvar, hkey, fun free hfree =>
      hplain' free (Memo.keys_addReturned_subset.1 hfree).2⟩
  returned := by
    intro key u hmem
    rcases List.mem_cons.1 hmem with heq | hmem
    · obtain ⟨rfl, rfl⟩ := Prod.mk.inj heq
      refine ⟨d, hd, hbody, rfl, ?_⟩
      intro free hfree
      obtain ⟨hkey, hrest⟩ := Memo.keys_addReturned_subset.1 hfree
      exact hplain free hkey hrest
    · obtain ⟨e, he, hbody', hkey, hplain'⟩ := h.returned hmem
      exact ⟨e, he, hbody', hkey, fun free hfree =>
        hplain' free (Memo.keys_addReturned_subset.1 hfree).2⟩

end Progress.Grounded

theorem Progress.grounded_empty (a : Analysis) : Progress.Grounded a {} where
  idle := by simp
  declared := by
    intro key t h
    simp at h
  returned := by
    intro key t h
    simp at h

/-! ### Computations that meet nothing -/

namespace Guarded

variable {α β : Type}

/-- An answer is the answer of the last computation of a sequence. -/
theorem after_bind_eq_ok {x : Guarded α} {f : α → Guarded β} {s s' : Progress} {u : β}
    (h : (x >>= f).after s = some (.ok u, s')) :
    ∃ t s₁, x.after s = some (.ok t, s₁) ∧ (f t).after s₁ = some (.ok u, s') := by
  rw [after_bind] at h
  obtain ⟨⟨r, s₁⟩, hx, h⟩ := Option.bind_eq_some_iff.1 h
  cases r with
  | error e => simp at h
  | ok t => exact ⟨t, s₁, hx, h⟩

/-- What is known of a guarded computation from `s` to `s'` with the answer `t`: if nothing was met
on the way, `s'` is grounded again, and the plain computation `y` has this answer if everything that
is remembered may be entered. -/
structure Unmet (a : Analysis) (free : List DeclarationKey) (s s' : Progress) (t : α)
    (y : Option α) : Prop where
  wellTyped : s'.memo.WellTyped
  busy : s'.busy = s.busy
  met : s.met = true → s'.met = true
  plain : s.Grounded a → s'.met = false →
    s'.Grounded a ∧ s.memo.keys ⊆ s'.memo.keys ∧ (s'.memo.keys ⊆ free → y = some t)

namespace Unmet

variable {a : Analysis} {free : List DeclarationKey} {s s₁ s' : Progress} {t : α} {u : β}
  {y : Option α}

theorem refl (hs : s.memo.WellTyped)
    (h : s.Grounded a → s.memo.keys ⊆ free → y = some t) : Unmet a free s s t y where
  wellTyped := hs
  busy := rfl
  met := id
  plain hground _ := ⟨hground, List.Subset.refl _, h hground⟩

theorem trans {g : α → Option β} (h : Unmet a free s s₁ t y) (h' : Unmet a free s₁ s' u (g t)) :
    Unmet a free s s' u (y >>= g) where
  wellTyped := h'.wellTyped
  busy := h'.busy.trans h.busy
  met hmet := h'.met (h.met hmet)
  plain := by
    intro hground hmet
    have hmet₁ : s₁.met = false := by
      cases hs₁ : s₁.met with
      | false => rfl
      | true => simp [h'.met hs₁] at hmet
    obtain ⟨hground₁, hsub, hy⟩ := h.plain hground hmet₁
    obtain ⟨hground', hsub', hg⟩ := h'.plain hground₁ hmet
    refine ⟨hground', List.Subset.trans hsub hsub', ?_⟩
    intro hfree
    exact Option.bind_eq_some_iff.2 ⟨t, hy (List.Subset.trans hsub' hfree), hg hfree⟩

end Unmet

/-- The plain computation has the answer of the guarded one if that meets nothing. -/
def unmet (a : Analysis) (free : List DeclarationKey) : MonadRel Guarded Option where
  rel P x y := ∀ s t s', s.memo.WellTyped → x.after s = some (.ok t, s') →
    P t ∧ Unmet a free s s' t y
  pure := by
    intro _ P x hx s t s' hs hafter
    obtain ⟨heq, rfl⟩ := Prod.mk.inj (Option.some.inj hafter)
    obtain rfl := Except.ok.inj heq
    exact ⟨hx, .refl hs fun _ _ => rfl⟩
  bind := by
    intro _ _ P Q x y f g hxy hfg s u s' hs hafter
    obtain ⟨t, s₁, hx, hf⟩ := after_bind_eq_ok hafter
    obtain ⟨ht, hfirst⟩ := hxy s t s₁ hs hx
    obtain ⟨hu, hsecond⟩ := hfg t ht s₁ u s' hfirst.wellTyped hf
    exact ⟨hu, hfirst.trans hsecond⟩

theorem unmet_ofExcept {a : Analysis} {free : List DeclarationKey} (x : Except Fault α) :
    (unmet a free).rel (fun _ => True) (ofExcept x) x.toOption := by
  intro s t s' hs hafter
  obtain ⟨rfl, rfl⟩ := Prod.mk.inj (Option.some.inj hafter)
  exact ⟨trivial, .refl hs fun _ _ => rfl⟩

/-- A declaration is looked at. If this meets nothing, all that it needed is remembered, and the
declaration itself is not among it. -/
theorem unmet_during {a : Analysis} {key : DeclarationKey} {P : α → Prop} {x : Guarded α}
    {y : List DeclarationKey → Option α} (hinside : ∀ free, (unmet a free).rel P x (y free))
    {s s' : Progress} {t : α} (hs : s.memo.WellTyped) (hkey : key ∉ s.busy)
    (hafter : (during key x).after s = some (.ok t, s')) :
    P t ∧ s'.memo.WellTyped ∧ s'.busy = s.busy ∧ (s.met = true → s'.met = true) ∧
      (s.Grounded a → key ∉ s.memo.keys → s'.met = false →
        s'.Grounded a ∧ s.memo.keys ⊆ s'.memo.keys ∧
          ∀ free, s'.memo.keys ⊆ free → y (withoutKey free key) = some t) := by
  rw [after_during] at hafter
  obtain ⟨⟨r, s₁⟩, hx, heq⟩ := Option.map_eq_some_iff.1 hafter
  obtain ⟨rfl, rfl⟩ := Prod.mk.inj heq
  obtain ⟨ht, hrun⟩ := hinside [] { s with busy := key :: s.busy } t s₁ hs hx
  have hunmark : withoutKey s₁.busy key = s.busy := by
    rw [hrun.busy]
    exact withoutKey_cons_self hkey
  refine ⟨ht, hrun.wellTyped, hunmark, hrun.met, ?_⟩
  intro hground hfresh hmet
  have hentered : Progress.Grounded a { s with busy := key :: s.busy } :=
    { hground with
      idle := by
        intro k hk
        rcases List.mem_cons.1 hk with rfl | hk
        · exact hfresh
        · exact hground.idle k hk }
  obtain ⟨hground₁, hsub, -⟩ := hrun.plain hentered hmet
  -- The key was marked all the time, and what is marked is not remembered.
  have hunwritten : key ∉ s₁.memo.keys := by
    refine hground₁.idle key ?_
    rw [hrun.busy]
    exact List.mem_cons_self ..
  refine ⟨{ hground₁ with idle := ?_ }, hsub, ?_⟩
  · intro k hk
    exact hground₁.idle k (withoutKey_subset_self key hk)
  · intro free hfree
    have hinner : s₁.memo.keys ⊆ withoutKey free key := by
      intro k hk
      have hne : k ≠ key := fun h => hunwritten (h ▸ hk)
      exact List.mem_filter.2 ⟨hfree hk, by simpa using hne⟩
    have hrun := (hinside (withoutKey free key) { s with busy := key :: s.busy } t s₁ hs hx).2
    exact (hrun.plain hentered hmet).2.2 hinner

/-- A declaration is looked at, and its type is remembered by `add`. The plain computation `z`
enters it, and `y` is what it then computes. -/
theorem unmet_remembered {a : Analysis} {key : DeclarationKey} {x : Guarded Ty}
    {y : List DeclarationKey → Option Ty} {s s₁ : Progress} {t : Ty}
    (z : List DeclarationKey → Option Ty) (add : Memo → Memo)
    (hinside : ∀ free, (unmet a free).rel Ty.WellFormed x (y free))
    (hz : ∀ free, key ∈ free → z free = y (withoutKey free key))
    (hwell : s₁.memo.WellTyped → t.WellFormed → (add s₁.memo).WellTyped)
    (hkeys : ∀ free, (add s₁.memo).keys ⊆ free ↔ key ∈ free ∧ s₁.memo.keys ⊆ free)
    (hadd : s₁.Grounded a → key ∉ s₁.busy →
      (∀ free, key ∈ free → s₁.memo.keys ⊆ free → z free = some t) →
      Progress.Grounded a { s₁ with memo := add s₁.memo })
    (hs : s.memo.WellTyped) (hkey : key ∉ s.busy) (hfresh : s.Grounded a → key ∉ s.memo.keys)
    (hafter : (during key x).after s = some (.ok t, s₁)) (free : List DeclarationKey) :
    t.WellFormed ∧ Unmet a free s { s₁ with memo := add s₁.memo } t (z free) := by
  obtain ⟨ht, hwell₁, hbusy, hmet, hplain⟩ := unmet_during hinside hs hkey hafter
  refine ⟨ht, hwell hwell₁ ht, hbusy, hmet, ?_⟩
  intro hground hnotmet
  obtain ⟨hground₁, hsub, hy⟩ := hplain hground (hfresh hground) hnotmet
  have hanswer (free : List DeclarationKey) (hmem : key ∈ free) (hfree : s₁.memo.keys ⊆ free) :
      z free = some t := by
    rw [hz free hmem]
    exact hy free hfree
  have hkept : s₁.memo.keys ⊆ (add s₁.memo).keys := ((hkeys _).1 (List.Subset.refl _)).2
  refine ⟨hadd hground₁ (hbusy ▸ hkey) hanswer, List.Subset.trans hsub hkept, ?_⟩
  intro hfree
  exact hanswer free ((hkeys free).1 hfree).1 ((hkeys free).1 hfree).2

end Guarded

/-! ### Declarations -/

namespace Analysis

open Guarded

variable {a : Analysis} {typeOf : Declaration → Guarded Ty} {d : Declaration}

theorem unmet_guardedReturn (ha : a.IsRead) (free : List DeclarationKey)
    (hinside : ∀ free, ∀ e ∈ a.table.declarations,
      (unmet a free).rel Ty.WellFormed (typeOf e) (a.plainTypeIn free e))
    (hd : d ∈ a.table.declarations) :
    (unmet a free).rel Ty.WellFormed (a.guardedReturn typeOf d) (a.plainReturnIn free d) := by
  cases hbody : a.functionBody? d with
  | none =>
      rw [guardedReturn, plainReturnIn, hbody]
      exact (unmet a free).pure .any
  | some body =>
      have hsome : (a.functionBody? d).isSome = true := by rw [hbody]; rfl
      intro s t s' hs hafter
      rw [guardedReturn, hbody] at hafter
      dsimp only at hafter
      rw [after_bind_ok (after_progress s)] at hafter
      cases hlookup : s.memo.returned.lookup d.key with
      | some u =>
          rw [hlookup] at hafter
          obtain ⟨heq, rfl⟩ := Prod.mk.inj (Option.some.inj hafter)
          obtain rfl := Except.ok.inj heq
          refine ⟨hs.returned (mem_of_lookup_eq_some hlookup), .refl hs ?_⟩
          exact fun hground hfree => hground.plainReturnIn ha hd hsome hlookup hfree
      | none =>
          rw [hlookup] at hafter
          dsimp only at hafter
          by_cases hkey : d.key ∈ s.busy
          · -- The function is met again, and this is noted.
            rw [if_pos hkey, after_bind_ok (after_meet s)] at hafter
            obtain ⟨heq, rfl⟩ := Prod.mk.inj (Option.some.inj hafter)
            obtain rfl := Except.ok.inj heq
            exact ⟨.any, hs, rfl, fun _ => rfl, fun _ hmet => absurd hmet (by simp)⟩
          · rw [if_neg hkey] at hafter
            obtain ⟨u, s₁, hduring, hafter⟩ := after_bind_eq_ok hafter
            rw [after_bind_ok (after_remember _ s₁)] at hafter
            obtain ⟨heq, rfl⟩ := Prod.mk.inj (Option.some.inj hafter)
            obtain rfl := Except.ok.inj heq
            have hrel (free : List DeclarationKey) : (unmet a free).rel Ty.WellFormed
                (Guarded.ofExcept (a.ownReturns body) >>= a.returnedType typeOf)
                ((a.ownReturns body).toOption >>= a.returnedType (a.plainTypeIn free)) :=
              (unmet a free).bind (unmet_ofExcept _) fun returns _ =>
                rel_returnedType (hinside free) returns
            refine unmet_remembered (a.plainReturnIn · d) (·.addReturned d.key u) hrel ?_
              (fun hmemo ht => hmemo.addReturned d.key ht) (fun _ => Memo.keys_addReturned_subset)
              (fun hground hbusy => hground.addReturned hd hsome hbusy) hs hkey
              (fun hground => hground.function_not_mem ha hd hsome hlookup) hduring free
            intro free hfree
            rw [plainReturnIn, hbody]
            simp only [dif_pos hfree]

theorem unmet_guardedVariable (ha : a.IsRead) (free : List DeclarationKey)
    (hinside : ∀ free, ∀ e ∈ a.table.declarations,
      (unmet a free).rel Ty.WellFormed (typeOf e) (a.plainTypeIn free e))
    (hd : d ∈ a.table.declarations) (hvar : d.isVariable = true) :
    (unmet a free).rel Ty.WellFormed (a.guardedVariable typeOf d) (a.plainVariableIn free d) := by
  intro s t s' hs hafter
  rw [guardedVariable, after_bind_ok (after_progress s)] at hafter
  cases hlookup : s.memo.declared.lookup d.key with
  | some u =>
      rw [hlookup] at hafter
      obtain ⟨heq, rfl⟩ := Prod.mk.inj (Option.some.inj hafter)
      obtain rfl := Except.ok.inj heq
      refine ⟨hs.declared (mem_of_lookup_eq_some hlookup), .refl hs ?_⟩
      exact fun hground hfree => hground.plainVariableIn ha hd hvar hlookup hfree
  | none =>
      rw [hlookup] at hafter
      dsimp only at hafter
      by_cases hkey : d.key ∈ s.busy
      · rw [if_pos hkey, after_bind_ok (after_meet s)] at hafter
        obtain ⟨heq, rfl⟩ := Prod.mk.inj (Option.some.inj hafter)
        obtain rfl := Except.ok.inj heq
        exact ⟨.any, hs, rfl, fun _ => rfl, fun _ hmet => absurd hmet (by simp)⟩
      · rw [if_neg hkey] at hafter
        obtain ⟨u, s₁, hduring, hafter⟩ := after_bind_eq_ok hafter
        rw [after_bind_ok (after_remember _ s₁)] at hafter
        obtain ⟨heq, rfl⟩ := Prod.mk.inj (Option.some.inj hafter)
        obtain rfl := Except.ok.inj heq
        refine unmet_remembered (a.plainVariableIn · d) (·.addDeclared d.key u)
          (fun free => rel_initialType (hinside free) d) ?_
          (fun hmemo ht => hmemo.addDeclared d.key ht) (fun _ => Memo.keys_addDeclared_subset)
          (fun hground hbusy => hground.addDeclared hd hvar hbusy) hs hkey
          (fun hground => hground.variable_not_mem ha hd hvar hlookup) hduring free
        intro free hfree
        rw [plainVariableIn, dif_pos hfree]

theorem unmet_guardedType (ha : a.IsRead) (depth : Nat) (free : List DeclarationKey)
    (hd : d ∈ a.table.declarations) :
    (unmet a free).rel Ty.WellFormed (a.guardedType depth d) (a.plainTypeIn free d) := by
  induction depth generalizing free d with
  | zero =>
      intro s t s' _ hafter
      rw [guardedType] at hafter
      simp [cutOff, Guarded.after, ExceptT.run, ExceptT.mk, StateT.run] at hafter
  | succ depth ih =>
      rw [guardedType, plainTypeIn]
      exact rel_declarationTypeBy (fun t => ha.consistent.wellFormed hd)
        (unmet_guardedReturn ha free (fun free e he => ih free he) hd)
        (unmet_guardedVariable ha free (fun free e he => ih free he) hd)

/-! ### Documents without recursion -/

end Analysis

namespace Question

variable {a : Analysis}

/-- The answer to a question when every type is inferred anew. -/
def plainAnswer (q : Question a) : Option (Option Ty) :=
  q.answerBy (a.plainReturnIn a.table.keys) (a.plainTypeIn a.table.keys)

/-- Does the question, asked first thing, lead back to a declaration that is being looked at? -/
def meets (q : Question a) : Bool :=
  ((q.askWithin a.table.keys.length).after {}).any fun r => r.2.met

end Question

namespace Analysis

open Guarded

/-- Neither the type nor the return type of a declaration leads back to a declaration that is being
looked at. -/
def NeverMeets (a : Analysis) : Prop :=
  ∀ d ∈ a.table.declarations.attach,
    (Question.declared d).meets = false ∧ (Question.returned d).meets = false

instance (a : Analysis) : Decidable a.NeverMeets :=
  inferInstanceAs (Decidable (∀ d ∈ a.table.declarations.attach,
    (Question.declared d).meets = false ∧ (Question.returned d).meets = false))

variable {a : Analysis}

/-- A question that meets nothing has a plain answer. -/
theorem exists_plainAnswer_of_meets (ha : a.IsRead) {q : Question a} (hq : q.meets = false) :
    ∃ answer, q.plainAnswer = some answer := by
  have hdepth : (a.freeOf []).length ≤ a.table.keys.length := by rw [freeOf_nil]
  obtain ⟨answer, memo', met', -, -, -, hask⟩ :=
    follows_askWithin ha hdepth q {} false Memo.wellTyped_empty
  have hmet : met' = false := by simpa [Question.meets, hask] using hq
  subst hmet
  have hrel : (unmet a a.table.keys).rel (fun _ => True) (q.askWithin a.table.keys.length)
      q.plainAnswer :=
    q.rel_answerBy
      (fun d hd => unmet_guardedReturn ha _ (fun free e he => unmet_guardedType ha _ free he) hd)
      fun d hd => unmet_guardedType ha _ _ hd
  obtain ⟨-, hrun⟩ := hrel _ answer _ Memo.wellTyped_empty hask
  obtain ⟨hground, -, hplain⟩ := hrun.plain (Progress.grounded_empty a) rfl
  exact ⟨answer, hplain hground.keys_subset⟩

/-- The first computation has an answer; the second one does not matter. -/
def answered : MonadRel Option Option where
  rel P x _ := ∃ t, P t ∧ x = some t
  pure := by
    intro _ P x hx
    exact ⟨x, hx, rfl⟩
  bind := by
    rintro _ _ P Q x _ f _ ⟨t, ht, rfl⟩ hf
    exact hf t ht

/-- Where no declaration leads back to itself, every question has a plain answer. -/
theorem exists_plainAnswer (ha : a.IsRead) (hclear : a.NeverMeets) (q : Question a) :
    ∃ answer, q.plainAnswer = some answer := by
  have hrel : answered.rel (fun _ => True) q.plainAnswer q.plainAnswer := by
    refine q.rel_answerBy ?_ ?_
    · intro d hd
      obtain ⟨answer, hplain⟩ :=
        exists_plainAnswer_of_meets ha (hclear ⟨d, hd⟩ (List.mem_attach ..)).2
      obtain ⟨t, ht, -⟩ := Option.map_eq_some_iff.1 hplain
      exact ⟨t, (refines_plainReturnIn ha.consistent (List.Subset.refl _) d t ht).1, ht⟩
    · intro d hd
      obtain ⟨answer, hplain⟩ :=
        exists_plainAnswer_of_meets ha (hclear ⟨d, hd⟩ (List.mem_attach ..)).1
      obtain ⟨t, ht, -⟩ := Option.map_eq_some_iff.1 hplain
      exact ⟨t, (refines_plainTypeIn ha.consistent (List.Subset.refl _) hd t ht).1, ht⟩
  obtain ⟨answer, -, hplain⟩ := hrel
  exact ⟨answer, hplain⟩

/-- On a faithful memo a question has its plain answer. -/
theorem agrees_ask (ha : a.IsRead) (q : Question a) :
    a.agrees.rel (fun _ => True) q.plainAnswer q.ask := by
  rw [q.ask_eq_askIn]
  exact q.rel_answerBy (fun d hd => agrees_returnTypeIn ha.consistent (List.Subset.refl _) hd)
    fun d hd => agrees_declarationTypeIn ha.consistent (List.Subset.refl _) hd

theorem faithful_memoAfter (ha : a.IsRead) (hclear : a.NeverMeets)
    (before : List (Question a)) : a.Faithful (Question.memoAfter before {}) := by
  refine Question.memoAfter_induction ?_ before (faithful_empty a)
  intro q memo hmemo
  obtain ⟨answer, hplain⟩ := exists_plainAnswer ha hclear q
  obtain ⟨memo', hask, hmemo'⟩ := (agrees_ask ha q answer hplain).2 memo hmemo
  rw [hask]
  exact hmemo'

/-- On documents without recursion remembering is transparent: a question that is asked behind any
others has the answer that it has when it is asked first, and that it has when every type is
inferred anew. -/
theorem remembering_is_transparent (text : List Char) (uri : Option String) (catalog : Catalog)
    (hclear : (Analysis.ofText text uri catalog).NeverMeets) :
    let a := Analysis.ofText text uri catalog
    ∀ (before : List (Question a)) (q : Question a), ∃ answer,
      q.answerAfter before = .ok answer ∧ q.answerAfter [] = .ok answer ∧
        q.plainAnswer = some answer := by
  intro a before q
  have ha : a.IsRead := isRead_ofText text uri catalog
  obtain ⟨answer, hplain⟩ := exists_plainAnswer ha hclear q
  have hafter (before : List (Question a)) : q.answerAfter before = .ok answer := by
    obtain ⟨memo', hask, -⟩ :=
      (agrees_ask ha q answer hplain).2 _ (faithful_memoAfter ha hclear before)
    rw [Question.answerAfter, hask]
  exact ⟨answer, hafter before, hafter [], hplain⟩

/-- Declarations that build on each other: functions that call the one before twice, a class with a
method, and a loop. -/
def callChain : List Char :=
  "def f():\nreturn 1\nend\ndef g():\nreturn [f(), f()]\nend\n".toList ++
    "class P\ndef m():\nreturn [g(), g()]\nend\nend\n".toList ++
    "var p = P()\nfor x in p.m():\nvar y = x\nend\n".toList

/-- On declarations that build on each other, questions have the answers they have when they are
asked first. -/
theorem remembering_is_transparent_callChain :
    let a := Analysis.ofText callChain none {}
    a.NeverMeets ∧ ∀ (before : List (Question a)) (q : Question a), ∃ answer,
      q.answerAfter before = .ok answer ∧ q.answerAfter [] = .ok answer ∧
        q.plainAnswer = some answer := by
  intro a
  have hclear : a.NeverMeets := by decide +kernel
  exact ⟨hclear, remembering_is_transparent callChain none {} hclear⟩

end Analysis

end Polyloft
