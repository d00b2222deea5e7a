import Polyloft.Proofs.Inference.Question

/-!
# Polyloft.Proofs.Inference.Guarded

Inference ends. `Polyloft.Inference` shows this by its argument `free`, which loses a declaration
whenever one is entered. Here the same inference is written the way it is run on a machine: the
declarations that are being looked at are part of the state, a declaration is marked when it is
entered and unmarked when it is left, and a marked one is not entered again. Nothing else bounds the
recursion, so it is cut off at a depth, and a computation that is cut off has no outcome at all.

No computation is cut off (`follows_guardedType`): as many levels as there are unmarked declarations
are enough, whatever is remembered, and afterwards the marks are what they were before. The walk
from a class-like to its parents is bounded separately, by the names that it has met: it goes along
the lineage, which has no name twice (`nodup_lineage`).

## Proof shape

`follows busy` relates a computation of `Polyloft.Inference` to a guarded one that starts and ends
with the marks `busy`. It is carried through expressions by `Polyloft.Proofs.Inference.Relation`, so
that only the two places where a declaration is entered remain, and an induction on the depth.
-/

namespace Polyloft

/-! ### Guarded computations -/

/-- The state of a guarded computation: what is remembered, which declarations are being looked at,
and whether one of these was met again. -/
structure Progress where
  memo : Memo := {}
  busy : List DeclarationKey := []
  met : Bool := false

/-- A computation that knows which declarations are being looked at. It has no outcome, not even a
fault, where it is cut off. -/
abbrev Guarded := ExceptT Fault (StateT Progress Option)

namespace Guarded

variable {α β : Type}

/-- The outcome of a computation on a state, and the state that it leaves. -/
def after (x : Guarded α) (s : Progress) : Option (Except Fault α × Progress) :=
  (ExceptT.run x).run s

/-- A computation that is cut off. -/
def cutOff : Guarded α :=
  ExceptT.mk fun _ => none

/-- A computation that leaves the state alone. -/
def ofExcept (x : Except Fault α) : Guarded α :=
  ExceptT.mk fun s => some (x, s)

/-- The state. -/
def progress : Guarded Progress :=
  ExceptT.mk fun s => some (.ok s, s)

/-- Remembers something. -/
def remember (f : Memo → Memo) : Guarded Unit :=
  ExceptT.mk fun s => some (.ok (), { s with memo := f s.memo })

/-- Notes that a declaration was met while it was being looked at. -/
def meet : Guarded Unit :=
  ExceptT.mk fun s => some (.ok (), { s with met := true })

/-- Marks a declaration while a computation runs, and unmarks it whatever the outcome. -/
def during (key : DeclarationKey) (x : Guarded α) : Guarded α :=
  ExceptT.mk fun s =>
    (x.after { s with busy := key :: s.busy }).map fun r =>
      (r.1, { r.2 with busy := withoutKey r.2.busy key })

theorem ofExcept_ok (x : α) : (ofExcept (.ok x) : Guarded α) = pure x :=
  rfl

@[simp] theorem after_progress (s : Progress) : progress.after s = some (.ok s, s) :=
  rfl

@[simp] theorem after_remember (f : Memo → Memo) (s : Progress) :
    (remember f).after s = some (.ok (), { s with memo := f s.memo }) :=
  rfl

@[simp] theorem after_meet (s : Progress) : meet.after s = some (.ok (), { s with met := true }) :=
  rfl

theorem after_during (key : DeclarationKey) (x : Guarded α) (s : Progress) :
    (during key x).after s =
      (x.after { s with busy := key :: s.busy }).map fun r =>
        (r.1, { r.2 with busy := withoutKey r.2.busy key }) :=
  rfl

theorem after_bind (x : Guarded α) (f : α → Guarded β) (s : Progress) :
    (x >>= f).after s =
      (x.after s).bind fun r =>
        match r.1 with
        | .ok t => (f t).after r.2
        | .error e => some (.error e, r.2) := by
  simp only [after, ExceptT.run_bind, StateT.run_bind]
  rcases (ExceptT.run x).run s with _ | ⟨_ | t, s'⟩ <;> rfl

theorem after_bind_ok {x : Guarded α} {s s' : Progress} {t : α}
    (h : x.after s = some (.ok t, s')) (f : α → Guarded β) :
    (x >>= f).after s = (f t).after s' := by
  rw [after_bind, h]
  rfl

end Guarded

/-! ### Guarded inference -/

namespace Analysis

variable (a : Analysis)

/-- The return type of a declaration that has a body, given the types of what it refers to. -/
def guardedReturn (typeOf : Declaration → Guarded Ty) (d : Declaration) : Guarded Ty :=
  match a.functionBody? d with
  | none => pure .any
  | some body => do
    let s ← Guarded.progress
    match s.memo.returned.lookup d.key with
    | some t => pure t
    | none =>
      if d.key ∈ s.busy then do
        Guarded.meet
        pure .any
      else do
        let t ← Guarded.during d.key do
          let returns ← Guarded.ofExcept (a.ownReturns body)
          a.returnedType typeOf returns
        Guarded.remember (·.addReturned d.key t)
        pure t

/-- The type of a variable that was declared without one, given the types of what it refers to. -/
def guardedVariable (typeOf : Declaration → Guarded Ty) (d : Declaration) : Guarded Ty := do
  let s ← Guarded.progress
  match s.memo.declared.lookup d.key with
  | some t => pure t
  | none =>
    if d.key ∈ s.busy then do
      Guarded.meet
      pure .any
    else do
      let t ← Guarded.during d.key (a.initialType typeOf d)
      Guarded.remember (·.addDeclared d.key t)
      pure t

/-- The type of a declaration, cut off behind `depth` levels of declarations. -/
def guardedType : (depth : Nat) → Declaration → Guarded Ty
  | 0, _ => Guarded.cutOff
  | depth + 1, d =>
    declarationTypeBy (a.guardedReturn (guardedType depth)) (a.guardedVariable (guardedType depth))
      d

/-- The declarations that are not being looked at. -/
def freeOf (busy : List DeclarationKey) : List DeclarationKey :=
  a.table.keys.filter (· ∉ busy)

end Analysis

/-- Asks a question of guarded inference, where at most `depth` declarations may be entered inside
one another. -/
def Question.askWithin {a : Analysis} (depth : Nat) (q : Question a) : Guarded (Option Ty) :=
  q.answerBy (a.guardedReturn (a.guardedType depth)) (a.guardedType (depth + 1))

/-! ### No computation is cut off -/

namespace Guarded

/-- From every memo of well-formed types and with the given marks, the two computations have the
same answer and leave the same memo; the marks are left as they are. -/
def follows (busy : List DeclarationKey) : MonadRel Infer Guarded where
  rel P x y := ∀ memo met, memo.WellTyped →
    ∃ t memo' met', x.after memo = (.ok t, memo') ∧ P t ∧ memo'.WellTyped ∧
      y.after ⟨memo, busy, met⟩ = some (.ok t, ⟨memo', busy, met'⟩)
  pure := by
    intro _ P x hx memo met hmemo
    exact ⟨x, memo, met, rfl, hx, hmemo, rfl⟩
  bind := by
    intro _ _ P Q x y f g hxy hfg memo met hmemo
    obtain ⟨t, memo₁, met₁, hx, ht, hmemo₁, hy⟩ := hxy memo met hmemo
    obtain ⟨u, memo₂, met₂, hf, hu, hmemo₂, hg⟩ := hfg t ht memo₁ met₁ hmemo₁
    refine ⟨u, memo₂, met₂, ?_, hu, hmemo₂, ?_⟩
    · rw [Infer.after_bind_ok hx, hf]
    · rw [after_bind_ok hy, hg]

/-- Unmarking a declaration that was marked. -/
theorem withoutKey_cons_self {busy : List DeclarationKey} {key : DeclarationKey}
    (hkey : key ∉ busy) : withoutKey (key :: busy) key = busy := by
  rw [withoutKey, List.filter_cons_of_neg (by simp), List.filter_eq_self]
  intro k hk
  have hne : k ≠ key := fun heq => hkey (heq ▸ hk)
  simpa using hne

/-- Entering a declaration marks it for the time being. -/
theorem after_during_of_follows {busy : List DeclarationKey} {key : DeclarationKey} {α : Type}
    {P : α → Prop} {x : Infer α} {y : Guarded α} (h : (follows (key :: busy)).rel P x y)
    (hkey : key ∉ busy) {memo : Memo} (met : Bool) (hmemo : memo.WellTyped) :
    ∃ t memo' met', x.after memo = (.ok t, memo') ∧ P t ∧ memo'.WellTyped ∧
      (during key y).after ⟨memo, busy, met⟩ = some (.ok t, ⟨memo', busy, met'⟩) := by
  obtain ⟨t, memo', met', hx, ht, hmemo', hy⟩ := h memo met hmemo
  refine ⟨t, memo', met', hx, ht, hmemo', ?_⟩
  rw [after_during, hy, Option.map_some, withoutKey_cons_self hkey]

end Guarded

namespace Analysis

open Guarded

variable {a : Analysis}

theorem mem_freeOf {busy : List DeclarationKey} {d : Declaration} (hd : d ∈ a.table.declarations) :
    d.key ∈ a.freeOf busy ↔ d.key ∉ busy := by
  simp only [freeOf, List.mem_filter, decide_eq_true_eq, and_iff_right_iff_imp]
  exact fun _ => List.mem_map_of_mem hd

theorem freeOf_nil : a.freeOf [] = a.table.keys := by
  simp [freeOf]

theorem freeOf_cons (key : DeclarationKey) (busy : List DeclarationKey) :
    a.freeOf (key :: busy) = withoutKey (a.freeOf busy) key := by
  rw [freeOf, freeOf, withoutKey, List.filter_filter]
  congr 1
  funext k
  simp [not_or]

/-- A function is entered by both computations or by neither. -/
theorem follows_guardedReturn (ha : a.IsRead) {busy : List DeclarationKey} {d : Declaration}
    (hd : d ∈ a.table.declarations) {typeOf : Declaration → Guarded Ty}
    (hinside : d.key ∉ busy → ∀ e ∈ a.table.declarations, (follows (d.key :: busy)).rel
      Ty.WellFormed (a.declarationTypeIn (a.freeOf (d.key :: busy)) e) (typeOf e)) :
    (follows busy).rel Ty.WellFormed (a.returnTypeIn (a.freeOf busy) d)
      (a.guardedReturn typeOf d) := by
  rw [returnTypeIn, guardedReturn]
  cases hbody : a.functionBody? d with
  | none => exact (follows busy).pure .any
  | some body =>
      intro memo met hmemo
      dsimp only
      rw [Infer.after_bind_ok (Infer.after_memo memo), after_bind_ok (after_progress _)]
      dsimp only
      cases hlookup : memo.returned.lookup d.key with
      | some t =>
          have ht := hmemo.returned (mem_of_lookup_eq_some hlookup)
          exact ⟨t, memo, met, rfl, ht, hmemo, rfl⟩
      | none =>
          by_cases hkey : d.key ∈ busy
          · -- The function is being looked at already; both answer `Any`.
            have hfree : d.key ∉ a.freeOf busy := fun h => (mem_freeOf hd).1 h hkey
            simp only [dif_neg hfree, if_pos hkey]
            exact ⟨.any, memo, true, rfl, .any, hmemo, rfl⟩
          · have hfree : d.key ∈ a.freeOf busy := (mem_freeOf hd).2 hkey
            simp only [dif_pos hfree, if_neg hkey, ← freeOf_cons]
            obtain ⟨returns, hreturns⟩ := ha.exists_ownReturns_eq_ok hbody
            rw [hreturns, Infer.after_bind_ok (Infer.after_ofExcept _ memo), ofExcept_ok, pure_bind]
            have hrel := rel_returnedType (hinside hkey) returns
            obtain ⟨t, memo', met', hx, ht, hmemo', hy⟩ :=
              after_during_of_follows hrel hkey met hmemo
            rw [Infer.after_bind_ok hx, Infer.after_bind_ok (Infer.after_remember _ memo')]
            rw [after_bind_ok hy, after_bind_ok (after_remember _ _)]
            exact ⟨t, _, met', rfl, ht, hmemo'.addReturned d.key ht, rfl⟩

/-- A variable is entered by both computations or by neither. -/
theorem follows_guardedVariable {busy : List DeclarationKey} {d : Declaration}
    (hd : d ∈ a.table.declarations) {typeOf : Declaration → Guarded Ty}
    (hinside : d.key ∉ busy → ∀ e ∈ a.table.declarations, (follows (d.key :: busy)).rel
      Ty.WellFormed (a.declarationTypeIn (a.freeOf (d.key :: busy)) e) (typeOf e)) :
    (follows busy).rel Ty.WellFormed (a.variableTypeIn (a.freeOf busy) d)
      (a.guardedVariable typeOf d) := by
  intro memo met hmemo
  rw [variableTypeIn, guardedVariable, Infer.after_bind_ok (Infer.after_memo memo),
    after_bind_ok (after_progress _)]
  dsimp only
  cases hlookup : memo.declared.lookup d.key with
  | some t =>
      have ht := hmemo.declared (mem_of_lookup_eq_some hlookup)
      exact ⟨t, memo, met, rfl, ht, hmemo, rfl⟩
  | none =>
      by_cases hkey : d.key ∈ busy
      · have hfree : d.key ∉ a.freeOf busy := fun h => (mem_freeOf hd).1 h hkey
        simp only [dif_neg hfree, if_pos hkey]
        exact ⟨.any, memo, true, rfl, .any, hmemo, rfl⟩
      · have hfree : d.key ∈ a.freeOf busy := (mem_freeOf hd).2 hkey
        simp only [dif_pos hfree, if_neg hkey, ← freeOf_cons]
        have hrel := rel_initialType (hinside hkey) d
        obtain ⟨t, memo', met', hx, ht, hmemo', hy⟩ :=
          after_during_of_follows hrel hkey met hmemo
        rw [Infer.after_bind_ok hx, Infer.after_bind_ok (Infer.after_remember _ memo')]
        rw [after_bind_ok hy, after_bind_ok (after_remember _ _)]
        exact ⟨t, _, met', rfl, ht, hmemo'.addDeclared d.key ht, rfl⟩

/-- As many levels as there are declarations to enter are enough. -/
theorem follows_guardedType (ha : a.IsRead) (depth : Nat) {busy : List DeclarationKey}
    (hdepth : (a.freeOf busy).length ≤ depth) {d : Declaration}
    (hd : d ∈ a.table.declarations) :
    (follows busy).rel Ty.WellFormed (a.declarationTypeIn (a.freeOf busy) d)
      (a.guardedType (depth + 1) d) := by
  induction depth generalizing busy d with
  | zero =>
      -- Everything is being looked at, so no declaration is entered.
      have hinside {e : Declaration} (he : e ∈ a.table.declarations) (hkey : e.key ∉ busy) :
          False := by
        have := List.length_pos_of_mem ((mem_freeOf he).2 hkey)
        omega
      rw [declarationTypeIn, guardedType]
      exact rel_declarationTypeBy (fun t => ha.consistent.wellFormed hd)
        (follows_guardedReturn ha hd fun hkey => (hinside hd hkey).elim)
        fun _ => follows_guardedVariable hd fun hkey => (hinside hd hkey).elim
  | succ depth ih =>
      have hinside (hkey : d.key ∉ busy) (e : Declaration) (he : e ∈ a.table.declarations) :
          (follows (d.key :: busy)).rel Ty.WellFormed
            (a.declarationTypeIn (a.freeOf (d.key :: busy)) e) (a.guardedType (depth + 1) e) := by
        refine ih ?_ he
        have := length_withoutKey_lt ((mem_freeOf hd).2 hkey)
        rw [freeOf_cons]
        omega
      rw [declarationTypeIn, guardedType]
      exact rel_declarationTypeBy (fun t => ha.consistent.wellFormed hd)
        (follows_guardedReturn ha hd hinside) fun _ => follows_guardedVariable hd hinside

theorem follows_askWithin (ha : a.IsRead) {depth : Nat} {busy : List DeclarationKey}
    (hdepth : (a.freeOf busy).length ≤ depth) (q : Question a) :
    (follows busy).rel (fun _ => True) (q.askIn (a.freeOf busy)) (q.askWithin depth) := by
  refine q.rel_answerBy ?_ fun d hd => follows_guardedType ha depth hdepth hd
  intro d hd
  refine follows_guardedReturn ha hd ?_
  intro hkey e he
  have := length_withoutKey_lt ((mem_freeOf hd).2 hkey)
  obtain ⟨n, rfl⟩ : ∃ n, depth = n + 1 := ⟨depth - 1, by omega⟩
  refine follows_guardedType ha n ?_ he
  rw [freeOf_cons]
  omega

/-! ### Inference ends -/

/-- Questions leave memos of well-formed types. -/
theorem wellTyped_memoAfter (ha : a.IsRead) (before : List (Question a)) :
    (Question.memoAfter before {}).WellTyped := by
  refine Question.memoAfter_induction ?_ before Memo.wellTyped_empty
  intro q memo hmemo
  have hdepth : (a.freeOf []).length ≤ (a.freeOf []).length := Nat.le_refl _
  obtain ⟨answer, memo', -, hask, -, hmemo', -⟩ :=
    follows_askWithin ha hdepth q memo false hmemo
  rw [q.ask_eq_askIn, ← freeOf_nil, hask]
  exact hmemo'

/-- Inference ends. Whatever was asked before, every question has an answer, the guarded recursion
is not cut off at a depth of as many declarations as are not being looked at, and the declarations
that are being looked at are the same before and after. The walk over the parents of a class-like
goes along its lineage and meets no name twice. -/
theorem inference_ends (text : List Char) (uri : Option String) (catalog : Catalog) :
    let a := Analysis.ofText text uri catalog
    (∀ before : List (Question a), (Question.memoAfter before {}).WellTyped) ∧
    (∀ (memo : Memo) (busy : List DeclarationKey) (met : Bool) (q : Question a) (depth : Nat),
      memo.WellTyped → (a.freeOf busy).length ≤ depth →
        ∃ answer memo' met',
          (q.askWithin depth).after ⟨memo, busy, met⟩ = some (.ok answer, ⟨memo', busy, met'⟩) ∧
          (q.askIn (a.freeOf busy)).after memo = (.ok answer, memo') ∧ memo'.WellTyped) ∧
    (∀ q : Question a, q.askIn (a.freeOf []) = q.ask) ∧
    ∀ owner, (a.table.lineage owner).Nodup ∧ ∀ m, a.table.memberSource? owner m =
      (a.table.classLikes owner).findSome? (a.table.ownMember? · m) := by
  intro a
  have ha : a.IsRead := isRead_ofText text uri catalog
  refine ⟨wellTyped_memoAfter ha, ?_, ?_, fun owner =>
    ⟨a.table.nodup_lineage owner, a.table.memberSource?_eq_findSome? owner⟩⟩
  · intro memo busy met q depth hmemo hdepth
    obtain ⟨answer, memo', met', hask, -, hmemo', hwithin⟩ :=
      follows_askWithin ha hdepth q memo met hmemo
    exact ⟨answer, memo', met', hwithin, hask, hmemo'⟩
  · intro q
    rw [freeOf_nil, q.ask_eq_askIn]

/-- Declarations that refer to themselves: a variable, two functions, a loop variable, methods and
class-likes. -/
def selfReferring : List Char :=
  "var x = x\ndef f():\nreturn g()\nend\ndef g():\nreturn [f()]\nend\nfor i in i:\nend\n".toList ++
    "class A < B\ndef p():\nreturn this.q()\nend\ndef q():\nreturn this.p()\nend\nend\n".toList ++
    "class B < A\nend\n".toList

/-- Eight levels are enough for declarations that refer to themselves. -/
theorem inference_ends_selfReferring :
    let a := Analysis.ofText selfReferring none {}
    ∀ q : Question a, ∃ answer memo' met',
      (q.askWithin 8).after {} = some (.ok answer, ⟨memo', [], met'⟩) ∧
        q.ask.after {} = (.ok answer, memo') := by
  intro a q
  obtain ⟨-, hends, hask, -⟩ := inference_ends selfReferring none {}
  have hdepth : (a.freeOf []).length ≤ 8 := by decide +kernel
  obtain ⟨answer, memo', met', hwithin, hin, -⟩ :=
    hends {} [] false q 8 Memo.wellTyped_empty hdepth
  rw [hask q] at hin
  exact ⟨answer, memo', met', hwithin, hin⟩

end Analysis

end Polyloft
