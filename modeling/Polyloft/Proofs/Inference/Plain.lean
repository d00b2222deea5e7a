import Polyloft.Proofs.Inference.Relation

/-!
# Polyloft.Proofs.Inference.Plain

Inference without a memory. `Analysis.plainTypeIn` finds the type of a declaration by inferring the
type of every declaration that it refers to anew, and has no answer where it would come back to a
declaration it is still busy with. A document is acyclic when every declaration has a type in this
sense. On such a document remembering changes nothing: whatever was asked before, a question has
the answer that it has without a memory.

## Proof shape

A plain answer stays the same when more declarations may be entered (`plainReturnIn_mono`,
`plainVariableIn_mono`). A memo is faithful when it holds plain answers only. On a faithful memo a
declaration with a plain answer has this answer, and the memo left behind is faithful again
(`agrees_returnTypeIn`, `agrees_variableTypeIn`); what is remembered under one key serves all
declarations of that key because these are sourced alike. The step to expressions and to sequences
of questions is `Polyloft.Proofs.Inference.Relation`.
-/

namespace Polyloft

/-! ### Computations that remember -/

namespace Infer

variable {α β : Type}

@[simp] theorem after_pure (x : α) (memo : Memo) : (pure x : Infer α).after memo = (.ok x, memo) :=
  rfl

@[simp] theorem after_ofExcept (x : Except Fault α) (memo : Memo) :
    (ofExcept x).after memo = (x, memo) :=
  rfl

@[simp] theorem after_memo (memo : Memo) : Infer.memo.after memo = (.ok memo, memo) :=
  rfl

@[simp] theorem after_remember (f : Memo → Memo) (memo : Memo) :
    (remember f).after memo = (.ok (), f memo) :=
  rfl

theorem after_bind_ok {x : Infer α} {memo memo' : Memo} {a : α} (h : x.after memo = (.ok a, memo'))
    (f : α → Infer β) : (x >>= f).after memo = (f a).after memo' := by
  simp only [after, ExceptT.run_bind, StateT.run_bind] at h ⊢
  rw [h]
  rfl

theorem after_bind_error {x : Infer α} {memo memo' : Memo} {e : Fault}
    (h : x.after memo = (.error e, memo')) (f : α → Infer β) :
    (x >>= f).after memo = (.error e, memo') := by
  simp only [after, ExceptT.run_bind, StateT.run_bind] at h ⊢
  rw [h]
  rfl

/-! ### Results of computations -/

section

variable {P : α → Prop} {Q : β → Prop}

/-- Whatever the computation returns satisfies `P`. -/
def Ensures (P : α → Prop) (x : Infer α) : Prop :=
  ∀ memo a memo', x.after memo = (.ok a, memo') → P a

theorem Ensures.pure {a : α} (h : P a) : Ensures P (pure a) := by
  intro memo b memo' hb
  obtain ⟨hb, -⟩ := Prod.mk.inj hb
  exact Except.ok.inj hb ▸ h

theorem Ensures.ofExcept {x : Except Fault α} (h : ∀ a, x = .ok a → P a) :
    Ensures P (ofExcept x) := by
  intro memo a memo' ha
  exact h a (Prod.mk.inj ha).1

theorem Ensures.bind {x : Infer α} {f : α → Infer β} (hx : Ensures P x)
    (hf : ∀ a, P a → Ensures Q (f a)) : Ensures Q (x >>= f) := by
  intro memo b memo' hb
  rcases hafter : x.after memo with ⟨_ | a, memo₁⟩
  · rw [after_bind_error hafter] at hb
    exact absurd (Prod.mk.inj hb).1 (by simp)
  · rw [after_bind_ok hafter] at hb
    exact hf a (hx memo a memo₁ hafter) memo₁ b memo' hb

theorem Ensures.mono {P' : α → Prop} {x : Infer α} (hx : Ensures P x) (h : ∀ a, P a → P' a) :
    Ensures P' x :=
  fun memo a memo' ha => h a (hx memo a memo' ha)

theorem Ensures.trivial (x : Infer α) : Ensures (fun _ => True) x :=
  fun _ _ _ _ => True.intro

theorem Ensures.mapM {xs : List α} {f : α → Infer β} (h : ∀ x ∈ xs, Ensures Q (f x)) :
    Ensures (fun ys => ∀ y ∈ ys, Q y) (xs.mapM f) := by
  induction xs with
  | nil => exact .pure (by simp)
  | cons x xs ih =>
      rw [List.forall_mem_cons] at h
      rw [List.mapM_cons]
      refine .bind h.1 fun y hy => .bind (ih h.2) fun ys hys => .pure ?_
      exact List.forall_mem_cons.2 ⟨hy, hys⟩

end

end Infer

namespace Analysis

variable (a : Analysis)

/-! ### Plain answers -/

/-- A plain computation that meets a fault has no answer. -/
instance : MonadLift (Except Fault) Option :=
  ⟨Except.toOption⟩

mutual

/-- The return type of a declaration that has a body, from what it returns; `none` where it depends
on a declaration outside of `free`. -/
def plainReturnIn (free : List DeclarationKey) (d : Declaration) : Option Ty :=
  match a.functionBody? d with
  | none => some .any
  | some body =>
    if h : d.key ∈ free then do
      have := length_withoutKey_lt h
      let returns ← (a.ownReturns body).toOption
      a.returnedType (fun e => plainTypeIn (withoutKey free d.key) e) returns
    else none
termination_by 2 * free.length

/-- The type of a variable that was declared without one; `none` where it depends on a declaration
outside of `free`. -/
def plainVariableIn (free : List DeclarationKey) (d : Declaration) : Option Ty :=
  if h : d.key ∈ free then
    have := length_withoutKey_lt h
    a.initialType (fun e => plainTypeIn (withoutKey free d.key) e) d
  else none
termination_by 2 * free.length

/-- The type of a declaration when only the declarations in `free` may be entered. -/
def plainTypeIn (free : List DeclarationKey) (d : Declaration) : Option Ty :=
  declarationTypeBy (fun e => plainReturnIn free e) (fun e => plainVariableIn free e) d
termination_by 2 * free.length + 1

end

/-- The type of a declaration, found without a memory; `none` if it depends on itself. -/
def plainType (d : Declaration) : Option Ty :=
  a.plainTypeIn a.table.keys d

/-- The type of no declaration depends on itself. -/
def IsAcyclic : Prop :=
  ∀ d ∈ a.table.declarations, (a.plainType d).isSome = true

instance : Decidable a.IsAcyclic :=
  inferInstanceAs (Decidable (∀ d ∈ a.table.declarations, (a.plainType d).isSome = true))

end Analysis

/-! ### More declarations may be entered -/

theorem withoutKey_subset {free free' : List DeclarationKey} (h : free ⊆ free')
    (key : DeclarationKey) : withoutKey free key ⊆ withoutKey free' key :=
  List.filter_subset _ h

theorem withoutKey_subset_self {free : List DeclarationKey} (key : DeclarationKey) :
    withoutKey free key ⊆ free :=
  fun _ hk => (List.mem_filter.1 hk).1

/-- The second computation has every answer of the first. -/
def MonadRel.refines : MonadRel Option Option where
  rel P x y := ∀ t, x = some t → P t ∧ y = some t
  pure := by
    intro _ P x hx t ht
    obtain rfl := Option.some.inj ht
    exact ⟨hx, rfl⟩
  bind := by
    intro _ _ P Q x y f g hxy hfg t ht
    obtain ⟨s, hs, ht⟩ := Option.bind_eq_some_iff.1 ht
    obtain ⟨hP, hy⟩ := hxy s hs
    obtain ⟨hQ, hg⟩ := hfg s hP t ht
    exact ⟨hQ, Option.bind_eq_some_iff.2 ⟨s, hy, hg⟩⟩

namespace Analysis

variable {a : Analysis}

mutual

/-- A plain return type stays the same when more declarations may be entered. -/
theorem refines_plainReturnIn (ha : a.table.Consistent) {free free' : List DeclarationKey}
    (hfree : free ⊆ free') (d : Declaration) :
    MonadRel.refines.rel Ty.WellFormed (a.plainReturnIn free d) (a.plainReturnIn free' d) := by
  rw [plainReturnIn, plainReturnIn]
  cases a.functionBody? d with
  | none => exact MonadRel.refines.pure .any
  | some body =>
      by_cases hkey : d.key ∈ free
      · have := length_withoutKey_lt hkey
        simp only [dif_pos hkey, dif_pos (hfree hkey)]
        refine MonadRel.refines.bind (P := fun _ => True) (fun _ ht => ⟨trivial, ht⟩) ?_
        intro returns _
        refine rel_returnedType ?_ returns
        intro e he
        exact refines_plainTypeIn ha (withoutKey_subset hfree d.key) he
      · simp only [dif_neg hkey]
        intro t ht
        simp at ht
termination_by 2 * free.length

/-- The plain type of a variable stays the same when more declarations may be entered. -/
theorem refines_plainVariableIn (ha : a.table.Consistent) {free free' : List DeclarationKey}
    (hfree : free ⊆ free') (d : Declaration) :
    MonadRel.refines.rel Ty.WellFormed (a.plainVariableIn free d) (a.plainVariableIn free' d) := by
  rw [plainVariableIn, plainVariableIn]
  by_cases hkey : d.key ∈ free
  · have := length_withoutKey_lt hkey
    simp only [dif_pos hkey, dif_pos (hfree hkey)]
    refine rel_initialType ?_ d
    intro e he
    exact refines_plainTypeIn ha (withoutKey_subset hfree d.key) he
  · simp only [dif_neg hkey]
    intro t ht
    simp at ht
termination_by 2 * free.length

theorem refines_plainTypeIn (ha : a.table.Consistent) {free free' : List DeclarationKey}
    (hfree : free ⊆ free') {d : Declaration} (hd : d ∈ a.table.declarations) :
    MonadRel.refines.rel Ty.WellFormed (a.plainTypeIn free d) (a.plainTypeIn free' d) := by
  rw [plainTypeIn, plainTypeIn]
  exact rel_declarationTypeBy (fun t => ha.wellFormed hd) (refines_plainReturnIn ha hfree d)
    (fun _ => refines_plainVariableIn ha hfree d)
termination_by 2 * free.length + 1

end

/-! ### Faithful memos -/

/-- Everything remembered is a plain answer. -/
structure Faithful (a : Analysis) (memo : Memo) : Prop where
  declared : ∀ {d : Declaration} {t : Ty}, d ∈ a.table.declarations → d.isVariable = true →
    memo.declared.lookup d.key = some t → a.plainVariableIn a.table.keys d = some t
  returned : ∀ {d : Declaration} {t : Ty}, d ∈ a.table.declarations →
    (a.functionBody? d).isSome = true → memo.returned.lookup d.key = some t →
    a.plainReturnIn a.table.keys d = some t

/-- The empty memo is faithful. -/
theorem faithful_empty (a : Analysis) : a.Faithful {} where
  declared := by
    intro d t _ _ h
    simp at h
  returned := by
    intro d t _ _ h
    simp at h

theorem plainVariableIn_congr {free : List DeclarationKey} {d e : Declaration}
    (hkey : d.key = e.key) (h : d.SourcedAlike e) :
    a.plainVariableIn free d = a.plainVariableIn free e := by
  obtain ⟨hform, howner, hinit, hline⟩ := h
  rw [plainVariableIn, plainVariableIn]
  simp only [hkey, initialType, hform, howner, hinit, hline]

theorem body_ne_none {d : Declaration} (h : (a.functionBody? d).isSome = true) :
    d.body ≠ none := by
  intro hnone
  simp [functionBody?, hnone] at h

/-- Remembering the plain type of a variable keeps a memo faithful. -/
theorem Faithful.addDeclared (ha : a.table.Consistent) {memo : Memo} (h : a.Faithful memo)
    {d : Declaration} {t : Ty} (hd : d ∈ a.table.declarations) (hvar : d.isVariable = true)
    (ht : a.plainVariableIn a.table.keys d = some t) : a.Faithful (memo.addDeclared d.key t) where
  declared := by
    intro e s he hvar' hs
    rw [Memo.addDeclared, List.lookup_cons] at hs
    by_cases hkey : e.key = d.key
    · rw [plainVariableIn_congr hkey (ha.sourcedAlike he hd hkey hvar' hvar), ht]
      simpa [hkey] using hs
    · have hne : (e.key == d.key) = false := by simpa using hkey
      rw [hne] at hs
      exact h.declared he hvar' hs
  returned := h.returned

/-- Remembering the plain return type of a function keeps a memo faithful. -/
theorem Faithful.addReturned (ha : a.table.Consistent) {memo : Memo} (h : a.Faithful memo)
    {d : Declaration} {t : Ty} (hd : d ∈ a.table.declarations)
    (hbody : (a.functionBody? d).isSome = true)
    (ht : a.plainReturnIn a.table.keys d = some t) : a.Faithful (memo.addReturned d.key t) where
  declared := h.declared
  returned := by
    intro e s he hbody' hs
    rw [Memo.addReturned, List.lookup_cons] at hs
    by_cases hkey : e.key = d.key
    · obtain rfl := ha.eq_of_body he hd hkey (body_ne_none hbody') (body_ne_none hbody)
      rw [ht]
      simpa using hs
    · have hne : (e.key == d.key) = false := by simpa using hkey
      rw [hne] at hs
      exact h.returned he hbody' hs

/-- On faithful memos, the second computation has every answer of the first and leaves a faithful
memo. -/
def agrees (a : Analysis) : MonadRel Option Infer where
  rel P x y := ∀ t, x = some t → P t ∧ ∀ memo, a.Faithful memo →
    ∃ memo', y.after memo = (.ok t, memo') ∧ a.Faithful memo'
  pure := by
    intro _ P x hx t ht
    obtain rfl := Option.some.inj ht
    exact ⟨hx, fun memo hmemo => ⟨memo, rfl, hmemo⟩⟩
  bind := by
    intro _ _ P Q x y f g hxy hfg t ht
    obtain ⟨s, hs, ht⟩ := Option.bind_eq_some_iff.1 ht
    obtain ⟨hP, hy⟩ := hxy s hs
    obtain ⟨hQ, hg⟩ := hfg s hP t ht
    refine ⟨hQ, ?_⟩
    intro memo hmemo
    obtain ⟨memo', hafter, hmemo'⟩ := hy memo hmemo
    rw [Infer.after_bind_ok hafter]
    exact hg memo' hmemo'

mutual

/-- On a faithful memo a function has its plain return type. -/
theorem agrees_returnTypeIn (ha : a.table.Consistent) {free : List DeclarationKey}
    (hfree : free ⊆ a.table.keys) {d : Declaration} (hd : d ∈ a.table.declarations) :
    a.agrees.rel Ty.WellFormed (a.plainReturnIn free d) (a.returnTypeIn free d) := by
  intro t ht
  obtain ⟨hwf, hall⟩ := refines_plainReturnIn ha hfree d t ht
  refine ⟨hwf, ?_⟩
  intro memo hmemo
  rw [plainReturnIn] at ht
  rw [returnTypeIn]
  cases hbody : a.functionBody? d with
  | none =>
      rw [hbody] at ht
      obtain rfl := Option.some.inj ht
      exact ⟨memo, rfl, hmemo⟩
  | some body =>
      rw [hbody] at ht
      dsimp only at ht ⊢
      have hisSome : (a.functionBody? d).isSome = true := by rw [hbody]; rfl
      rw [Infer.after_bind_ok (Infer.after_memo memo)]
      cases hlookup : memo.returned.lookup d.key with
      | some s =>
          -- What is remembered was found with all declarations free, and so it is `t`.
          have hs := hmemo.returned hd hisSome hlookup
          obtain rfl := Option.some.inj (hs.symm.trans hall)
          exact ⟨memo, rfl, hmemo⟩
      | none =>
          by_cases hkey : d.key ∈ free
          · have := length_withoutKey_lt hkey
            rw [dif_pos hkey] at ht
            simp only [dif_pos hkey]
            obtain ⟨returns, hreturns, ht⟩ := Option.bind_eq_some_iff.1 ht
            have hown : a.ownReturns body = .ok returns := by
              cases hown : a.ownReturns body with
              | error e => simp [hown, Except.toOption] at hreturns
              | ok returns' => simpa [hown, Except.toOption] using hreturns
            rw [hown, Infer.after_bind_ok (Infer.after_ofExcept _ memo)]
            have hrel : a.agrees.rel Ty.WellFormed
                (a.returnedType (fun e => a.plainTypeIn (withoutKey free d.key) e) returns)
                (a.returnedType (fun e => a.declarationTypeIn (withoutKey free d.key) e)
                  returns) := by
              refine rel_returnedType ?_ returns
              intro e he
              exact agrees_declarationTypeIn ha
                (fun k hk => hfree (withoutKey_subset_self d.key hk)) he
            obtain ⟨memo', hafter, hmemo'⟩ := (hrel t ht).2 memo hmemo
            rw [Infer.after_bind_ok hafter, Infer.after_bind_ok (Infer.after_remember _ memo')]
            exact ⟨_, rfl, hmemo'.addReturned ha hd hisSome hall⟩
          · -- A function that is being looked at has no plain type.
            rw [dif_neg hkey] at ht
            simp at ht
termination_by 2 * free.length

/-- On a faithful memo a variable has its plain type. -/
theorem agrees_variableTypeIn (ha : a.table.Consistent) {free : List DeclarationKey}
    (hfree : free ⊆ a.table.keys) {d : Declaration} (hd : d ∈ a.table.declarations)
    (hvar : d.isVariable = true) :
    a.agrees.rel Ty.WellFormed (a.plainVariableIn free d) (a.variableTypeIn free d) := by
  intro t ht
  obtain ⟨hwf, hall⟩ := refines_plainVariableIn ha hfree d t ht
  refine ⟨hwf, ?_⟩
  intro memo hmemo
  rw [plainVariableIn] at ht
  rw [variableTypeIn, Infer.after_bind_ok (Infer.after_memo memo)]
  cases hlookup : memo.declared.lookup d.key with
  | some s =>
      have hs := hmemo.declared hd hvar hlookup
      obtain rfl := Option.some.inj (hs.symm.trans hall)
      exact ⟨memo, rfl, hmemo⟩
  | none =>
      by_cases hkey : d.key ∈ free
      · have := length_withoutKey_lt hkey
        rw [dif_pos hkey] at ht
        simp only [dif_pos hkey]
        have hrel : a.agrees.rel Ty.WellFormed
            (a.initialType (fun e => a.plainTypeIn (withoutKey free d.key) e) d)
            (a.initialType (fun e => a.declarationTypeIn (withoutKey free d.key) e) d) := by
          refine rel_initialType ?_ d
          intro e he
          exact agrees_declarationTypeIn ha
            (fun k hk => hfree (withoutKey_subset_self d.key hk)) he
        obtain ⟨memo', hafter, hmemo'⟩ := (hrel t ht).2 memo hmemo
        rw [Infer.after_bind_ok hafter, Infer.after_bind_ok (Infer.after_remember _ memo')]
        exact ⟨_, rfl, hmemo'.addDeclared ha hd hvar hall⟩
      · rw [dif_neg hkey] at ht
        simp at ht
termination_by 2 * free.length

theorem agrees_declarationTypeIn (ha : a.table.Consistent) {free : List DeclarationKey}
    (hfree : free ⊆ a.table.keys) {d : Declaration} (hd : d ∈ a.table.declarations) :
    a.agrees.rel Ty.WellFormed (a.plainTypeIn free d) (a.declarationTypeIn free d) := by
  rw [plainTypeIn, declarationTypeIn]
  exact rel_declarationTypeBy (fun t => ha.wellFormed hd) (agrees_returnTypeIn ha hfree hd)
    (fun hvar => agrees_variableTypeIn ha hfree hd hvar)
termination_by 2 * free.length + 1

end

/-! ### Questions -/

/-- On every faithful memo the computation has the same outcome, and it leaves a faithful memo. -/
def Steady (a : Analysis) {α : Type} (P : α → Prop) (x : Infer α) : Prop :=
  ∃ r : Except Fault α, (∀ t, r = .ok t → P t) ∧ ∀ memo, a.Faithful memo →
    ∃ memo', x.after memo = (r, memo') ∧ a.Faithful memo'

namespace Steady

variable {α β : Type} {P : α → Prop} {Q : β → Prop}

theorem ofExcept (x : Except Fault α) (h : ∀ t, x = .ok t → P t) :
    a.Steady P (Infer.ofExcept x) :=
  ⟨x, h, fun memo hmemo => ⟨memo, rfl, hmemo⟩⟩

theorem pure {x : α} (h : P x) : a.Steady P (pure x) := by
  refine ofExcept (.ok x) ?_
  intro t ht
  obtain rfl := Except.ok.inj ht
  exact h

theorem bind {x : Infer α} {f : α → Infer β} (hx : a.Steady P x)
    (hf : ∀ t, P t → a.Steady Q (f t)) : a.Steady Q (x >>= f) := by
  obtain ⟨r, hP, hafter⟩ := hx
  cases r with
  | error e =>
      refine ⟨.error e, by simp, ?_⟩
      intro memo hmemo
      obtain ⟨memo', hx, hmemo'⟩ := hafter memo hmemo
      exact ⟨memo', Infer.after_bind_error hx f, hmemo'⟩
  | ok t =>
      obtain ⟨r, hQ, hafter'⟩ := hf t (hP t rfl)
      refine ⟨r, hQ, ?_⟩
      intro memo hmemo
      obtain ⟨memo', hx, hmemo'⟩ := hafter memo hmemo
      rw [Infer.after_bind_ok hx]
      exact hafter' memo' hmemo'

end Steady

/-- Steadiness as a relation; the second computation does not matter. -/
def steady (a : Analysis) : MonadRel Infer Infer where
  rel P x _ := a.Steady P x
  pure := Steady.pure
  bind := Steady.bind

/-- On an acyclic document the type of a declaration does not depend on the questions before. -/
theorem steady_declarationType (ha : a.table.Consistent) (hacyclic : a.IsAcyclic) {d : Declaration}
    (hd : d ∈ a.table.declarations) : a.Steady Ty.WellFormed (a.declarationType d) := by
  obtain ⟨t, ht⟩ := Option.isSome_iff_exists.1 (hacyclic d hd)
  obtain ⟨hwf, hafter⟩ := agrees_declarationTypeIn ha (List.Subset.refl _) hd t ht
  refine ⟨.ok t, ?_, hafter⟩
  intro s hs
  obtain rfl := Except.ok.inj hs
  exact hwf

end Analysis

end Polyloft
