import Polyloft.Declaration.Signature
import Polyloft.Proofs.Inference.Plain
import Polyloft.Proofs.Scope.Bounds
import Polyloft.Proofs.Token.Numeral

/-!
# Polyloft.Proofs.Inference.Total

Inference always has an answer. On a memo of well-formed types every question about a text is
answered by a well-formed type, without a fault, and the memo left behind is again one of
well-formed types. Two things could go wrong: an expression without tokens could be read, which
`Polyloft.Proofs.Inference.Relation` excludes, and the body of a function could reach beyond the
document, which it does not.
-/

namespace Polyloft

/-! ### Analyses of texts -/

/-- The analysis of a text. -/
def Analysis.IsRead (a : Analysis) : Prop :=
  ∃ text uri, a = Analysis.ofText text uri a.catalog

theorem Analysis.isRead_ofText (text : List Char) (uri : Option String) (catalog : Catalog) :
    (Analysis.ofText text uri catalog).IsRead :=
  ⟨text, uri, rfl⟩

namespace Analysis.IsRead

variable {a : Analysis} (ha : a.IsRead)
include ha

theorem isNumbered : a.document.IsNumbered := by
  obtain ⟨text, uri, h⟩ := ha
  rw [h]
  exact Document.isNumbered_ofText text uri

theorem tree_eq : a.tree = ScopeTree.build a.document := by
  obtain ⟨text, uri, h⟩ := ha
  rw [h]
  rfl

theorem table_eq : a.table = DeclarationTable.collect a.document a.tree := by
  obtain ⟨text, uri, h⟩ := ha
  rw [h]
  rfl

theorem consistent : a.table.Consistent := by
  rw [ha.table_eq]
  exact DeclarationTable.consistent_collect ha.isNumbered _

theorem size_pos : 0 < a.document.size := by
  obtain ⟨text, uri, h⟩ := ha
  rw [h]
  exact Document.size_ofText_pos text uri

theorem line_lt {d : Declaration} (hd : d ∈ a.table.declarations) : d.line < a.document.size := by
  rw [ha.table_eq] at hd
  exact DeclarationTable.line_lt_size ha.isNumbered hd

theorem stop_lt {i : Nat} {f : Frame} (hf : a.tree.frame? i = some f) :
    f.start < a.document.size ∧ f.stop.getD (a.document.size - 1) < a.document.size := by
  rw [ha.tree_eq] at hf
  exact ScopeTree.stop_lt ha.isNumbered ha.size_pos hf

theorem stray_lt {s : Nat} (hs : s ∈ a.tree.stray) : s < a.document.size := by
  rw [ha.tree_eq] at hs
  exact ScopeTree.stray_lt ha.isNumbered hs

theorem isNumeric {line : Line} (hline : line ∈ a.document.lines) {t : Token}
    (ht : t ∈ line.codeTokens) : t.IsNumeric := by
  obtain ⟨text, uri, h⟩ := ha
  rw [h] at hline
  exact Document.isNumeric_of_mem hline ht

/-- The returns of a function can be read. -/
theorem exists_ownReturns_eq_ok {d : Declaration} {body : Frame}
    (hbody : a.functionBody? d = some body) : ∃ returns, a.ownReturns body = .ok returns := by
  obtain ⟨hbody, -⟩ := Option.filter_eq_some_iff.1 hbody
  obtain ⟨i, -, hframe⟩ := Option.bind_eq_some_iff.1 hbody
  obtain ⟨lines, hlines⟩ :=
    Document.exists_linesBetween_eq_ok body.start (ha.stop_lt hframe).2
  rw [ownReturns, ownLines, hlines]
  exact ⟨_, rfl⟩

end Analysis.IsRead

/-! ### Computations that return -/

/-- Every remembered type is well formed. -/
structure Memo.WellTyped (memo : Memo) : Prop where
  declared : ∀ {key : DeclarationKey} {t : Ty}, (key, t) ∈ memo.declared → t.WellFormed
  returned : ∀ {key : DeclarationKey} {t : Ty}, (key, t) ∈ memo.returned → t.WellFormed

theorem Memo.wellTyped_empty : Memo.WellTyped {} where
  declared := by
    intro key t h
    simp at h
  returned := by
    intro key t h
    simp at h

theorem Memo.WellTyped.addDeclared {memo : Memo} (h : memo.WellTyped) (key : DeclarationKey)
    {t : Ty} (ht : t.WellFormed) : (memo.addDeclared key t).WellTyped where
  declared := by
    intro key' s hs
    rcases List.mem_cons.1 hs with heq | hs
    · obtain ⟨-, rfl⟩ := Prod.mk.inj heq
      exact ht
    · exact h.declared hs
  returned := h.returned

theorem Memo.WellTyped.addReturned {memo : Memo} (h : memo.WellTyped) (key : DeclarationKey)
    {t : Ty} (ht : t.WellFormed) : (memo.addReturned key t).WellTyped where
  declared := h.declared
  returned := by
    intro key' s hs
    rcases List.mem_cons.1 hs with heq | hs
    · obtain ⟨-, rfl⟩ := Prod.mk.inj heq
      exact ht
    · exact h.returned hs

namespace Infer

variable {α β : Type} {P : α → Prop} {Q : β → Prop}

/-- On every memo of well-formed types the computation has an answer that satisfies `P`, and it
leaves such a memo. -/
def Returns (P : α → Prop) (x : Infer α) : Prop :=
  ∀ memo, memo.WellTyped → ∃ t memo', x.after memo = (.ok t, memo') ∧ P t ∧ memo'.WellTyped

theorem Returns.ofExcept {x : Except Fault α} (h : ∃ t, x = .ok t ∧ P t) :
    Returns P (Infer.ofExcept x) := by
  intro memo hmemo
  obtain ⟨t, rfl, ht⟩ := h
  exact ⟨t, memo, rfl, ht, hmemo⟩

theorem Returns.pure {x : α} (h : P x) : Returns P (pure x) :=
  .ofExcept ⟨x, rfl, h⟩

theorem Returns.bind {x : Infer α} {f : α → Infer β} (hx : Returns P x)
    (hf : ∀ t, P t → Returns Q (f t)) : Returns Q (x >>= f) := by
  intro memo hmemo
  obtain ⟨t, memo', hafter, ht, hmemo'⟩ := hx memo hmemo
  rw [after_bind_ok hafter]
  exact hf t ht memo' hmemo'

/-- Returning as a relation; the second computation does not matter. -/
def returns : MonadRel Infer Infer where
  rel P x _ := Returns P x
  pure := Returns.pure
  bind := Returns.bind

theorem Returns.map {x : Infer α} {f : α → β} (hx : Returns P x) (hf : ∀ t, P t → Q (f t)) :
    Returns Q (f <$> x) :=
  returns.map (y := x) hx hf

theorem Returns.mapM {xs : List α} {f : α → Infer β} (h : ∀ x ∈ xs, Returns Q (f x)) :
    Returns (fun ys => ∀ y ∈ ys, Q y) (xs.mapM f) :=
  returns.mapM (g := f) h

/-- The answer of a computation that returns. -/
theorem Returns.exists_answer_eq_ok {x : Infer α} (h : Returns P x) :
    ∃ t, x.answer = .ok t ∧ P t := by
  obtain ⟨t, memo', hafter, ht, -⟩ := h {} Memo.wellTyped_empty
  exact ⟨t, by rw [answer, hafter], ht⟩

end Infer

/-! ### Declarations and expressions -/

namespace Analysis

open Infer

variable {a : Analysis}

mutual

theorem returns_returnTypeIn (ha : a.IsRead) (free : List DeclarationKey) (d : Declaration) :
    Returns Ty.WellFormed (a.returnTypeIn free d) := by
  rw [returnTypeIn]
  cases hbody : a.functionBody? d with
  | none => exact .pure .any
  | some body =>
      intro memo hmemo
      dsimp only
      rw [after_bind_ok (after_memo memo)]
      cases hlookup : memo.returned.lookup d.key with
      | some t => exact ⟨t, memo, rfl, hmemo.returned (mem_of_lookup_eq_some hlookup), hmemo⟩
      | none =>
          by_cases hkey : d.key ∈ free
          · have := length_withoutKey_lt hkey
            simp only [dif_pos hkey]
            obtain ⟨returns, hreturns⟩ := ha.exists_ownReturns_eq_ok hbody
            rw [hreturns, after_bind_ok (after_ofExcept _ memo)]
            have hrel : Returns Ty.WellFormed
                (a.returnedType (fun e => a.declarationTypeIn (withoutKey free d.key) e)
                  returns) :=
              rel_returnedType (R := Infer.returns)
                (g := fun e => a.declarationTypeIn (withoutKey free d.key) e)
                (fun e he => returns_declarationTypeIn ha (withoutKey free d.key) he) returns
            obtain ⟨t, memo', hafter, ht, hmemo'⟩ := hrel memo hmemo
            rw [after_bind_ok hafter, after_bind_ok (after_remember _ memo')]
            exact ⟨t, _, rfl, ht, hmemo'.addReturned d.key ht⟩
          · -- The function is being looked at already; the answer is `Any` and is not remembered.
            simp only [dif_neg hkey]
            exact ⟨.any, memo, rfl, .any, hmemo⟩
termination_by 2 * free.length

theorem returns_variableTypeIn (ha : a.IsRead) (free : List DeclarationKey) (d : Declaration) :
    Returns Ty.WellFormed (a.variableTypeIn free d) := by
  intro memo hmemo
  rw [variableTypeIn, after_bind_ok (after_memo memo)]
  cases hlookup : memo.declared.lookup d.key with
  | some t => exact ⟨t, memo, rfl, hmemo.declared (mem_of_lookup_eq_some hlookup), hmemo⟩
  | none =>
      by_cases hkey : d.key ∈ free
      · have := length_withoutKey_lt hkey
        simp only [dif_pos hkey]
        have hrel : Returns Ty.WellFormed
            (a.initialType (fun e => a.declarationTypeIn (withoutKey free d.key) e) d) :=
          rel_initialType (R := Infer.returns)
            (g := fun e => a.declarationTypeIn (withoutKey free d.key) e)
            (fun e he => returns_declarationTypeIn ha (withoutKey free d.key) he) d
        obtain ⟨t, memo', hafter, ht, hmemo'⟩ := hrel memo hmemo
        rw [after_bind_ok hafter, after_bind_ok (after_remember _ memo')]
        exact ⟨t, _, rfl, ht, hmemo'.addDeclared d.key ht⟩
      · simp only [dif_neg hkey]
        exact ⟨.any, memo, rfl, .any, hmemo⟩
termination_by 2 * free.length

theorem returns_declarationTypeIn (ha : a.IsRead) (free : List DeclarationKey) {d : Declaration}
    (hd : d ∈ a.table.declarations) : Returns Ty.WellFormed (a.declarationTypeIn free d) := by
  rw [declarationTypeIn]
  exact rel_declarationTypeBy (R := Infer.returns) (g := fun e => a.returnTypeIn free e)
    (w := fun e => a.variableTypeIn free e) (fun t => ha.consistent.wellFormed hd)
    (returns_returnTypeIn ha free d) (fun _ => returns_variableTypeIn ha free d)
termination_by 2 * free.length + 1

end

/-- The type of a declaration is found. -/
theorem returns_declarationType (ha : a.IsRead) {d : Declaration}
    (hd : d ∈ a.table.declarations) : Returns Ty.WellFormed (a.declarationType d) :=
  returns_declarationTypeIn ha _ hd

/-- The type of a call of a function is found. -/
theorem returns_functionType (ha : a.IsRead) (d : Declaration) :
    Returns Ty.WellFormed (a.functionType d) :=
  rel_functionTypeBy (R := Infer.returns) (g := a.returnTypeIn a.table.keys)
    (returns_returnTypeIn ha _ d)

/-- The type of an expression is found. -/
theorem returns_inferTokens (ha : a.IsRead) (tokens : List Token) (line : Int) :
    Returns Ty.WellFormed (a.inferTokens tokens line) :=
  Expression.rel_inferTokens (R := Infer.returns) (g := a.declarationType)
    (fun _ hd => returns_declarationType ha hd) tokens line

/-- A declaration can be shown. -/
theorem returns_signature (ha : a.IsRead) {d : Declaration} (hd : d ∈ a.table.declarations) :
    Returns (fun _ => True) (a.signature d) := by
  unfold signature
  split
  · exact .pure trivial
  · unfold functionSignature
    dsimp only
    split
    · exact .pure trivial
    · have hrender : Returns (fun _ => True) (Ty.render <$> a.functionType d) :=
        (returns_functionType ha d).map fun _ _ => trivial
      split
      · split
        · exact hrender.bind fun _ _ => .pure trivial
        · exact Returns.bind (P := fun _ => True) (.pure trivial) fun _ _ => .pure trivial
      · exact hrender.bind fun _ _ => .pure trivial
  · unfold variableSignature
    split
    · exact .pure trivial
    · exact (returns_declarationType ha hd).bind fun _ _ => .pure trivial

end Analysis

end Polyloft
