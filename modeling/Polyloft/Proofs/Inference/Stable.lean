import Polyloft.Proofs.Inference.Guarded

/-!
# Polyloft.Proofs.Inference.Stable

Answers are stable. What a question finds out on the way may depend on the questions before it: a
function that is looked at while another one is being looked at sees `Any` in its place, and this is
remembered. But whatever a question used for its own answer is remembered when it ends, so the same
question finds it again, and what is remembered is never overwritten.

## Proof shape

`Memo.Grows free` is the growth of a memo by single writes, each of a key in `free` under which
nothing is remembered. Every computation makes a memo grow (`grows_declarationTypeIn`); the
declaration that is being looked at is not in `free`, and so its key is still unwritten when its
type is added. `settles` adds that the computation can be repeated on every later memo, with the
same answer and without a write. Only the two functions that write have to be looked at for this;
the rest is `Polyloft.Proofs.Inference.Relation`.
-/

namespace Polyloft

/-! ### Memos that grow -/

/-- A memo grows by writes: each is of a key in `free`, under which nothing was written before. -/
inductive Memo.Grows (free : List DeclarationKey) (old : Memo) : Memo → Prop
  | refl : Grows free old old
  | addDeclared {memo : Memo} {key : DeclarationKey} (t : Ty) (h : Grows free old memo)
      (hkey : key ∈ free) (hnone : memo.declared.lookup key = none) :
      Grows free old (memo.addDeclared key t)
  | addReturned {memo : Memo} {key : DeclarationKey} (t : Ty) (h : Grows free old memo)
      (hkey : key ∈ free) (hnone : memo.returned.lookup key = none) :
      Grows free old (memo.addReturned key t)

/-- What is found under one key is found after a write under another one. -/
theorem lookup_cons_of_lookup {log : List (DeclarationKey × Ty)} {key key' : DeclarationKey}
    {t : Ty} (u : Ty) (hkey : log.lookup key = some t) (hnone : log.lookup key' = none) :
    ((key', u) :: log).lookup key = some t := by
  have hne : (key == key') = false := by
    rw [beq_eq_false_iff_ne]
    rintro rfl
    simp [hkey] at hnone
  rw [List.lookup_cons, hne, hkey]

theorem lookup_cons_eq_none {log : List (DeclarationKey × Ty)} {key key' : DeclarationKey}
    (u : Ty) (hnone : log.lookup key = none) (hne : key ≠ key') :
    ((key', u) :: log).lookup key = none := by
  rw [List.lookup_cons, beq_eq_false_iff_ne.2 hne, hnone]

@[simp] theorem Memo.lookup_addDeclared (memo : Memo) (key : DeclarationKey) (t : Ty) :
    (memo.addDeclared key t).declared.lookup key = some t := by
  simp [Memo.addDeclared]

@[simp] theorem Memo.lookup_addReturned (memo : Memo) (key : DeclarationKey) (t : Ty) :
    (memo.addReturned key t).returned.lookup key = some t := by
  simp [Memo.addReturned]

namespace Memo.Grows

variable {free free' : List DeclarationKey} {old memo new : Memo} {key : DeclarationKey} {t : Ty}

theorem trans (h : Grows free old memo) (h' : Grows free memo new) : Grows free old new := by
  induction h' with
  | refl => exact h
  | addDeclared t _ hkey hnone ih => exact ih.addDeclared t hkey hnone
  | addReturned t _ hkey hnone ih => exact ih.addReturned t hkey hnone

theorem mono (hfree : free ⊆ free') (h : Grows free old new) : Grows free' old new := by
  induction h with
  | refl => exact .refl
  | addDeclared t _ hkey hnone ih => exact ih.addDeclared t (hfree hkey) hnone
  | addReturned t _ hkey hnone ih => exact ih.addReturned t (hfree hkey) hnone

/-- The type of a variable is never overwritten. -/
theorem declared (h : Grows free old new) (hkey : old.declared.lookup key = some t) :
    new.declared.lookup key = some t := by
  induction h with
  | refl => exact hkey
  | addDeclared u _ _ hnone ih => exact lookup_cons_of_lookup u ih hnone
  | addReturned _ _ _ _ ih => exact ih

/-- The return type of a function is never overwritten. -/
theorem returned (h : Grows free old new) (hkey : old.returned.lookup key = some t) :
    new.returned.lookup key = some t := by
  induction h with
  | refl => exact hkey
  | addDeclared _ _ _ _ ih => exact ih
  | addReturned u _ _ hnone ih => exact lookup_cons_of_lookup u ih hnone

/-- No variable is written that may not be entered. -/
theorem declared_none (h : Grows free old new) (hkey : key ∉ free)
    (hnone : old.declared.lookup key = none) : new.declared.lookup key = none := by
  induction h with
  | refl => exact hnone
  | addDeclared u _ hfree _ ih =>
      exact lookup_cons_eq_none u ih fun heq => hkey (heq ▸ hfree)
  | addReturned _ _ _ _ ih => exact ih

/-- No function is written that may not be entered. -/
theorem returned_none (h : Grows free old new) (hkey : key ∉ free)
    (hnone : old.returned.lookup key = none) : new.returned.lookup key = none := by
  induction h with
  | refl => exact hnone
  | addDeclared _ _ _ _ ih => exact ih
  | addReturned u _ hfree _ ih =>
      exact lookup_cons_eq_none u ih fun heq => hkey (heq ▸ hfree)

end Memo.Grows

theorem not_mem_withoutKey (free : List DeclarationKey) (key : DeclarationKey) :
    key ∉ withoutKey free key := by
  simp [withoutKey]

/-! ### What one declaration does -/

namespace Analysis

open Infer

variable {a : Analysis} {free : List DeclarationKey} {d : Declaration} {memo memo' : Memo} {t : Ty}

theorem returnTypeIn_of_no_body (hbody : a.functionBody? d = none) :
    a.returnTypeIn free d = pure .any := by
  rw [returnTypeIn, hbody]

theorem after_returnTypeIn_of_remembered (hbody : (a.functionBody? d).isSome = true)
    (h : memo.returned.lookup d.key = some t) :
    (a.returnTypeIn free d).after memo = (.ok t, memo) := by
  obtain ⟨body, hbody⟩ := Option.isSome_iff_exists.1 hbody
  rw [returnTypeIn, hbody]
  dsimp only
  rw [after_bind_ok (after_memo memo), h]
  rfl

theorem after_returnTypeIn_of_busy (hbody : (a.functionBody? d).isSome = true)
    (h : memo.returned.lookup d.key = none) (hkey : d.key ∉ free) :
    (a.returnTypeIn free d).after memo = (.ok .any, memo) := by
  obtain ⟨body, hbody⟩ := Option.isSome_iff_exists.1 hbody
  rw [returnTypeIn, hbody]
  dsimp only
  rw [after_bind_ok (after_memo memo), h]
  simp only [dif_neg hkey]
  rfl

theorem after_returnTypeIn_of_entered {body : Frame} {returns : List (List Token × Nat)}
    (hbody : a.functionBody? d = some body) (h : memo.returned.lookup d.key = none)
    (hkey : d.key ∈ free) (hreturns : a.ownReturns body = .ok returns)
    (hafter : (a.returnedType (a.declarationTypeIn (withoutKey free d.key)) returns).after memo =
      (.ok t, memo')) :
    (a.returnTypeIn free d).after memo = (.ok t, memo'.addReturned d.key t) := by
  rw [returnTypeIn, hbody]
  dsimp only
  rw [after_bind_ok (after_memo memo), h]
  simp only [dif_pos hkey]
  rw [hreturns, after_bind_ok (after_ofExcept _ memo), after_bind_ok hafter,
    after_bind_ok (after_remember _ memo')]
  rfl

theorem after_variableTypeIn_of_remembered (h : memo.declared.lookup d.key = some t) :
    (a.variableTypeIn free d).after memo = (.ok t, memo) := by
  rw [variableTypeIn, after_bind_ok (after_memo memo), h]
  rfl

theorem after_variableTypeIn_of_busy (h : memo.declared.lookup d.key = none) (hkey : d.key ∉ free) :
    (a.variableTypeIn free d).after memo = (.ok .any, memo) := by
  rw [variableTypeIn, after_bind_ok (after_memo memo), h]
  simp only [dif_neg hkey]
  rfl

theorem after_variableTypeIn_of_entered (h : memo.declared.lookup d.key = none)
    (hkey : d.key ∈ free)
    (hafter : (a.initialType (a.declarationTypeIn (withoutKey free d.key)) d).after memo =
      (.ok t, memo')) :
    (a.variableTypeIn free d).after memo = (.ok t, memo'.addDeclared d.key t) := by
  rw [variableTypeIn, after_bind_ok (after_memo memo), h]
  simp only [dif_pos hkey]
  rw [after_bind_ok hafter, after_bind_ok (after_remember _ memo')]
  rfl

end Analysis

/-! ### Computations make a memo grow -/

/-- The computation returns and makes every memo of well-formed types grow; the second computation
does not matter. -/
def Infer.grows (free : List DeclarationKey) : MonadRel Infer Infer where
  rel P x _ := ∀ memo, memo.WellTyped → ∃ t memo',
    x.after memo = (.ok t, memo') ∧ P t ∧ memo'.WellTyped ∧ memo.Grows free memo'
  pure := by
    intro _ P x hx memo hmemo
    exact ⟨x, memo, rfl, hx, hmemo, .refl⟩
  bind := by
    intro _ _ P Q x _ f _ hx hf memo hmemo
    obtain ⟨t, memo₁, hafter, ht, hmemo₁, hgrows⟩ := hx memo hmemo
    obtain ⟨u, memo₂, hafter', hu, hmemo₂, hgrows'⟩ := hf t ht memo₁ hmemo₁
    exact ⟨u, memo₂, by rw [Infer.after_bind_ok hafter, hafter'], hu, hmemo₂, hgrows.trans hgrows'⟩

namespace Analysis

open Infer

variable {a : Analysis}

mutual

theorem grows_returnTypeIn (ha : a.IsRead) (free : List DeclarationKey) (d : Declaration) :
    (grows free).rel Ty.WellFormed (a.returnTypeIn free d) (a.returnTypeIn free d) := by
  cases hbody : a.functionBody? d with
  | none =>
      rw [returnTypeIn_of_no_body hbody]
      exact (grows free).pure .any
  | some body =>
      have hsome : (a.functionBody? d).isSome = true := by rw [hbody]; rfl
      intro memo hmemo
      cases hlookup : memo.returned.lookup d.key with
      | some t =>
          exact ⟨t, memo, after_returnTypeIn_of_remembered hsome hlookup,
            hmemo.returned (mem_of_lookup_eq_some hlookup), hmemo, .refl⟩
      | none =>
          by_cases hkey : d.key ∈ free
          · have := length_withoutKey_lt hkey
            obtain ⟨returns, hreturns⟩ := ha.exists_ownReturns_eq_ok hbody
            have hinside := rel_returnedType (R := grows (withoutKey free d.key))
              (f := a.declarationTypeIn (withoutKey free d.key))
              (fun e he => grows_declarationTypeIn ha (withoutKey free d.key) he) returns
            obtain ⟨t, memo', hafter, ht, hmemo', hgrows⟩ := hinside memo hmemo
            refine ⟨t, _, after_returnTypeIn_of_entered hbody hlookup hkey hreturns hafter, ht,
              hmemo'.addReturned d.key ht, ?_⟩
            -- The key was not free inside, so it is still unwritten.
            have hnone := hgrows.returned_none (not_mem_withoutKey free d.key) hlookup
            exact (hgrows.mono (withoutKey_subset_self d.key)).addReturned t hkey hnone
          · exact ⟨.any, memo, after_returnTypeIn_of_busy hsome hlookup hkey, .any, hmemo, .refl⟩
termination_by 2 * free.length

theorem grows_variableTypeIn (ha : a.IsRead) (free : List DeclarationKey) (d : Declaration) :
    (grows free).rel Ty.WellFormed (a.variableTypeIn free d) (a.variableTypeIn free d) := by
  intro memo hmemo
  cases hlookup : memo.declared.lookup d.key with
  | some t =>
      exact ⟨t, memo, after_variableTypeIn_of_remembered hlookup,
        hmemo.declared (mem_of_lookup_eq_some hlookup), hmemo, .refl⟩
  | none =>
      by_cases hkey : d.key ∈ free
      · have := length_withoutKey_lt hkey
        have hinside := rel_initialType (R := grows (withoutKey free d.key))
          (f := a.declarationTypeIn (withoutKey free d.key))
          (fun e he => grows_declarationTypeIn ha (withoutKey free d.key) he) d
        obtain ⟨t, memo', hafter, ht, hmemo', hgrows⟩ := hinside memo hmemo
        refine ⟨t, _, after_variableTypeIn_of_entered hlookup hkey hafter, ht,
          hmemo'.addDeclared d.key ht, ?_⟩
        have hnone := hgrows.declared_none (not_mem_withoutKey free d.key) hlookup
        exact (hgrows.mono (withoutKey_subset_self d.key)).addDeclared t hkey hnone
      · exact ⟨.any, memo, after_variableTypeIn_of_busy hlookup hkey, .any, hmemo, .refl⟩
termination_by 2 * free.length

theorem grows_declarationTypeIn (ha : a.IsRead) (free : List DeclarationKey) {d : Declaration}
    (hd : d ∈ a.table.declarations) :
    (grows free).rel Ty.WellFormed (a.declarationTypeIn free d) (a.declarationTypeIn free d) := by
  rw [declarationTypeIn]
  exact rel_declarationTypeBy (fun t => ha.consistent.wellFormed hd)
    (grows_returnTypeIn ha free d) fun _ => grows_variableTypeIn ha free d
termination_by 2 * free.length + 1

end

end Analysis

/-! ### Computations that can be repeated -/

/-- The computation returns, makes the memo grow, and can be repeated on whatever this memo grows
into: the answer is the same, and nothing is written. The second computation does not matter. -/
def Infer.settles (free : List DeclarationKey) : MonadRel Infer Infer where
  rel P x _ := ∀ memo, memo.WellTyped → ∃ t memo',
    x.after memo = (.ok t, memo') ∧ P t ∧ memo'.WellTyped ∧ memo.Grows free memo' ∧
      ∀ later, memo'.Grows free later → x.after later = (.ok t, later)
  pure := by
    intro _ P x hx memo hmemo
    exact ⟨x, memo, rfl, hx, hmemo, .refl, fun _ _ => rfl⟩
  bind := by
    intro _ _ P Q x _ f _ hx hf memo hmemo
    obtain ⟨t, memo₁, hafter, ht, hmemo₁, hgrows, hagain⟩ := hx memo hmemo
    obtain ⟨u, memo₂, hafter', hu, hmemo₂, hgrows', hagain'⟩ := hf t ht memo₁ hmemo₁
    refine ⟨u, memo₂, by rw [Infer.after_bind_ok hafter, hafter'], hu, hmemo₂,
      hgrows.trans hgrows', ?_⟩
    intro later hlater
    rw [Infer.after_bind_ok (hagain later (hgrows'.trans hlater)), hagain' later hlater]

namespace Analysis

open Infer

variable {a : Analysis}

/-- A return type that may be found is remembered when it has been. -/
theorem settles_returnTypeIn (ha : a.IsRead) {free : List DeclarationKey} {d : Declaration}
    (hkey : d.key ∈ free) :
    (settles free).rel Ty.WellFormed (a.returnTypeIn free d) (a.returnTypeIn free d) := by
  cases hbody : a.functionBody? d with
  | none =>
      rw [returnTypeIn_of_no_body hbody]
      exact (settles free).pure .any
  | some body =>
      have hsome : (a.functionBody? d).isSome = true := by rw [hbody]; rfl
      intro memo hmemo
      obtain ⟨t, memo', hafter, ht, hmemo', hgrows⟩ := grows_returnTypeIn ha free d memo hmemo
      refine ⟨t, memo', hafter, ht, hmemo', hgrows, ?_⟩
      -- Whichever way the answer was found, it is remembered now, and for good.
      have hfound : memo'.returned.lookup d.key = some t := by
        cases hlookup : memo.returned.lookup d.key with
        | some u =>
            rw [after_returnTypeIn_of_remembered hsome hlookup] at hafter
            obtain ⟨hok, rfl⟩ := Prod.mk.inj hafter
            rw [hlookup, Except.ok.inj hok]
        | none =>
            obtain ⟨returns, hreturns⟩ := ha.exists_ownReturns_eq_ok hbody
            have hinside := rel_returnedType (R := grows (withoutKey free d.key))
              (f := a.declarationTypeIn (withoutKey free d.key))
              (fun e he => grows_declarationTypeIn ha (withoutKey free d.key) he) returns
            obtain ⟨u, memo₁, hbody', -⟩ := hinside memo hmemo
            rw [after_returnTypeIn_of_entered hbody hlookup hkey hreturns hbody'] at hafter
            obtain ⟨hok, rfl⟩ := Prod.mk.inj hafter
            rw [Memo.lookup_addReturned, Except.ok.inj hok]
      intro later hlater
      exact after_returnTypeIn_of_remembered hsome (hlater.returned hfound)

/-- The type of a variable that may be found is remembered when it has been. -/
theorem settles_variableTypeIn (ha : a.IsRead) {free : List DeclarationKey} {d : Declaration}
    (hkey : d.key ∈ free) :
    (settles free).rel Ty.WellFormed (a.variableTypeIn free d) (a.variableTypeIn free d) := by
  intro memo hmemo
  obtain ⟨t, memo', hafter, ht, hmemo', hgrows⟩ := grows_variableTypeIn ha free d memo hmemo
  refine ⟨t, memo', hafter, ht, hmemo', hgrows, ?_⟩
  have hfound : memo'.declared.lookup d.key = some t := by
    cases hlookup : memo.declared.lookup d.key with
    | some u =>
        rw [after_variableTypeIn_of_remembered hlookup] at hafter
        obtain ⟨hok, rfl⟩ := Prod.mk.inj hafter
        rw [hlookup, Except.ok.inj hok]
    | none =>
        have hinside := rel_initialType (R := grows (withoutKey free d.key))
          (f := a.declarationTypeIn (withoutKey free d.key))
          (fun e he => grows_declarationTypeIn ha (withoutKey free d.key) he) d
        obtain ⟨u, memo₁, hinit, -⟩ := hinside memo hmemo
        rw [after_variableTypeIn_of_entered hlookup hkey hinit] at hafter
        obtain ⟨hok, rfl⟩ := Prod.mk.inj hafter
        rw [Memo.lookup_addDeclared, Except.ok.inj hok]
  intro later hlater
  exact after_variableTypeIn_of_remembered (hlater.declared hfound)

theorem settles_declarationTypeIn (ha : a.IsRead) {free : List DeclarationKey} {d : Declaration}
    (hd : d ∈ a.table.declarations) (hkey : d.key ∈ free) :
    (settles free).rel Ty.WellFormed (a.declarationTypeIn free d) (a.declarationTypeIn free d) := by
  rw [declarationTypeIn]
  exact rel_declarationTypeBy (fun t => ha.consistent.wellFormed hd)
    (settles_returnTypeIn ha hkey) fun _ => settles_variableTypeIn ha hkey

/-- Every question can be repeated. -/
theorem settles_ask (ha : a.IsRead) (q : Question a) :
    (settles a.table.keys).rel (fun _ => True) q.ask q.ask := by
  rw [q.ask_eq_askIn]
  refine q.rel_answerBy ?_ ?_
  · intro d hd
    exact settles_returnTypeIn ha (List.mem_map_of_mem hd)
  · intro d hd
    exact settles_declarationTypeIn ha hd (List.mem_map_of_mem hd)

/-! ### Sequences of questions -/

/-- Questions make the memo grow. -/
theorem grows_memoAfter (ha : a.IsRead) (questions : List (Question a)) {memo : Memo}
    (hmemo : memo.WellTyped) :
    (Question.memoAfter questions memo).WellTyped ∧
      memo.Grows a.table.keys (Question.memoAfter questions memo) := by
  refine Question.memoAfter_induction
    (motive := fun now => now.WellTyped ∧ memo.Grows a.table.keys now) ?_ questions ⟨hmemo, .refl⟩
  rintro q now ⟨hnow, hgrown⟩
  obtain ⟨t, next, hask, -, hnext, hgrows, -⟩ := settles_ask ha q now hnow
  rw [hask]
  exact ⟨hnext, hgrown.trans hgrows⟩

/-- Answers are stable. Whatever is asked before and in between, a question that is asked again has
the answer that it had; and what is remembered grows by writes under new keys only, so that it is
never changed. -/
theorem answers_are_stable (text : List Char) (uri : Option String) (catalog : Catalog) :
    let a := Analysis.ofText text uri catalog
    (∀ (before between : List (Question a)) (q : Question a), ∃ answer,
      q.answerAfter before = .ok answer ∧ q.answerAfter (before ++ q :: between) = .ok answer) ∧
    ∀ before between : List (Question a),
      let old := Question.memoAfter before {}
      let new := Question.memoAfter (before ++ between) {}
      old.Grows a.table.keys new ∧
      (∀ key t, old.declared.lookup key = some t → new.declared.lookup key = some t) ∧
      ∀ key t, old.returned.lookup key = some t → new.returned.lookup key = some t := by
  intro a
  have ha : a.IsRead := isRead_ofText text uri catalog
  constructor
  · intro before between q
    have hbefore := (grows_memoAfter ha before Memo.wellTyped_empty).1
    obtain ⟨answer, memo', hask, -, hmemo', -, hagain⟩ := settles_ask ha q _ hbefore
    refine ⟨answer, by rw [Question.answerAfter, hask], ?_⟩
    have hlater := (grows_memoAfter ha between hmemo').2
    rw [Question.answerAfter, Question.memoAfter_append, Question.memoAfter_cons, hask,
      hagain _ hlater]
  · intro before between
    dsimp only
    rw [Question.memoAfter_append]
    have hbefore := (grows_memoAfter ha before Memo.wellTyped_empty).1
    have hgrows := (grows_memoAfter ha between hbefore).2
    exact ⟨hgrows, fun _ _ => hgrows.declared, fun _ _ => hgrows.returned⟩

/-- Two functions that call each other. -/
def crossedFunctions : List Char :=
  "def f():\nreturn [g()]\nend\ndef g():\nreturn [f()]\nend\n".toList

/-- Where functions call each other, an answer depends on what was asked before it. What is asked
later does not change it. -/
theorem answers_are_stable_crossed :
    let a := Analysis.ofText crossedFunctions none {}
    let f : Question a := .expression "f()".toList 6
    let g : Question a := .expression "g()".toList 6
    let shown (before : List (Question a)) :=
      (f.answerAfter before).toOption.map fun answer => answer.map Ty.render
    shown [] = some (some "Array<Array<Any>>") ∧
      ∀ between, shown ([g] ++ f :: between) = some (some "Array<Any>") := by
  intro a f g shown
  refine ⟨by decide +kernel, ?_⟩
  intro between
  obtain ⟨answer, hbefore, hafter⟩ := (answers_are_stable crossedFunctions none {}).1 [g] between f
  have hshown : shown [g] = some (some "Array<Any>") := by decide +kernel
  calc shown ([g] ++ f :: between)
      = shown [g] := by simp only [shown, a, f, g, hbefore, hafter]
    _ = some (some "Array<Any>") := hshown

end Analysis

end Polyloft
