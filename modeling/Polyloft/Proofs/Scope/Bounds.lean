import Polyloft.Proofs.Scope.WellFormed

/-!
# Polyloft.Proofs.Scope.Bounds

The lines that a scope tree mentions are lines of its document: the first and last line of each
frame, and the lines that close nothing. Reading them never meets a missing line.
-/

namespace Polyloft

/-! ### Reading lines -/

/-- Every text has a line. -/
theorem Document.size_ofText_pos (text : List Char) (uri : Option String) :
    0 < (Document.ofText text uri).size := by
  have hlen := lexLines_length 0 false (Text.splitLines (Text.normaliseNewlines text))
  rw [Document.size, Document.ofText, Document.numberLines_length _ _ _ hlen]
  exact List.length_pos_of_ne_nil (Text.splitOnChar_ne_nil _ _)

theorem exists_mapM_eq_ok {α β : Type} {f : α → Except Fault β} {xs : List α}
    (h : ∀ x ∈ xs, ∃ y, f x = .ok y) : ∃ ys, xs.mapM f = .ok ys := by
  induction xs with
  | nil => exact ⟨[], rfl⟩
  | cons x xs ih =>
      obtain ⟨y, hy⟩ := h x (List.mem_cons_self ..)
      obtain ⟨ys, hys⟩ := ih fun x' hx' => h x' (List.mem_cons_of_mem _ hx')
      refine ⟨y :: ys, ?_⟩
      rw [List.mapM_cons, hy, hys]
      rfl

theorem Document.exists_lineAt_eq_ok {doc : Document} {index : Nat} (h : index < doc.size) :
    ∃ line, doc.lineAt index = .ok line := by
  refine ⟨doc.lines.get ⟨index, h⟩, ?_⟩
  rw [Document.lineAt, List.getElem?_eq_getElem h]
  rfl

theorem Document.exists_linesBetween_eq_ok {doc : Document} (first : Nat) {last : Nat}
    (h : last < doc.size) : ∃ lines, doc.linesBetween first last = .ok lines := by
  refine exists_mapM_eq_ok ?_
  intro index hindex
  rw [List.mem_range'_1] at hindex
  exact exists_lineAt_eq_ok (by omega)

/-! ### Lines that close nothing -/

namespace ScopeBuilder

variable {b : ScopeBuilder} {n s : Nat}

theorem stray_popClauses (line : Nat) (ids : List Nat) (b : ScopeBuilder) :
    (popClauses line ids b).stray = b.stray := by
  induction ids generalizing b with
  | nil => rfl
  | cons id ids ih =>
      rw [popClauses]
      split
      · rw [ih]
        rfl
      · rfl

/-- A line that closes a block adds at most its own number. -/
theorem mem_stray_close (h : s ∈ (b.close n).stray) : s ∈ b.stray ∨ s = n := by
  rw [close] at h
  dsimp only at h
  split at h
  · have hmem : s ∈ (popClauses n b.pending b).stray ++ [n] := h
    rw [stray_popClauses, List.mem_append, List.mem_singleton] at hmem
    exact hmem
  · have hmem : s ∈ (popClauses n b.pending b).stray := h
    rw [stray_popClauses] at hmem
    exact .inl hmem

theorem stray_ordinary (b : ScopeBuilder) (tokens : List Token) (n : Nat) :
    (b.ordinary tokens n).stray = b.stray := by
  rw [ordinary]
  split
  · rfl
  · dsimp only
    split <;> rfl

theorem mem_stray_branch? {c : Construct} {closes : Bool} {b' : ScopeBuilder}
    (hb : b.branch? c n closes = some b') (h : s ∈ b'.stray) : s ∈ b.stray ∨ s = n := by
  rw [branch?] at hb
  dsimp only at hb
  split at hb
  · split at hb
    · obtain rfl := Option.some.inj hb
      have hclose := mem_stray_close h
      exact hclose
    · obtain rfl := Option.some.inj hb
      exact .inl h
  · simp at hb

theorem stray_endClause (b : ScopeBuilder) (n : Nat) : (b.endClause n).stray = b.stray := by
  rw [endClause]
  split <;> rfl

theorem stray_clause? {c : Construct} {b' : ScopeBuilder} (hb : b.clause? c n = some b') :
    b'.stray = b.stray := by
  rw [clause?] at hb
  split at hb
  · obtain rfl := Option.some.inj hb
    rfl
  · simp at hb

theorem mem_stray_statement {tokens : List Token} (h : s ∈ (b.statement tokens n).stray) :
    s ∈ b.stray ∨ s = n := by
  rw [statement] at h
  split at h
  · rw [stray_ordinary] at h
    exact .inl h
  · split at h
    · split at h
      · rename_i c _
        cases hb : b.branch? c n (hasEnd _) with
        | none =>
            rw [hb, Option.getD_none, stray_ordinary] at h
            exact .inl h
        | some b' =>
            rw [hb] at h
            exact mem_stray_branch? hb h
      · split at h
        · rename_i c _
          dsimp only at h
          cases hb : (b.endClause n).clause? c n with
          | none =>
              rw [hb, Option.getD_none, stray_ordinary, stray_endClause] at h
              exact .inl h
          | some b' =>
              rw [hb, Option.getD_some, stray_clause? hb, stray_endClause] at h
              exact .inl h
        · rw [stray_ordinary] at h
          exact .inl h
    · rw [stray_ordinary] at h
      exact .inl h

/-- A line adds at most its own number to those that close nothing. -/
theorem mem_stray_stepAt {tokens : List Token} (h : s ∈ (b.stepAt tokens n).stray) :
    s ∈ b.stray ∨ s = n := by
  rw [stepAt] at h
  split at h
  · exact .inl h
  · split at h
    · exact mem_stray_close h
    · exact mem_stray_statement h

end ScopeBuilder

/-! ### The tree of a document -/

namespace ScopeTree

variable {doc : Document} (hdoc : doc.IsNumbered)
include hdoc

/-- A line that closes nothing is a line of the document. -/
theorem stray_lt {s : Nat} (h : s ∈ (ScopeTree.build doc).stray) : s < doc.size := by
  have hrun := ScopeBuilder.run_induction (motive := fun n b => ∀ s ∈ b.stray, s < n)
    (by
      intro n b ts hb s hs
      rcases ScopeBuilder.mem_stray_stepAt hs with hs | rfl
      · exact Nat.lt_succ_of_lt (hb s hs)
      · exact Nat.lt_succ_self s)
    (doc.lines.map Line.codeTokens) 0 (ScopeBuilder.init doc.size)
    (by intro s hs; cases hs)
  rw [Nat.zero_add, List.length_map] at hrun
  rw [build_eq_run hdoc] at h
  exact hrun s h

/-- The lines of a frame are lines of the document. -/
theorem stop_lt (hpos : 0 < doc.size) {i : Nat} {f : Frame}
    (h : (ScopeTree.build doc).frame? i = some f) :
    f.start < doc.size ∧ f.stop.getD (doc.size - 1) < doc.size := by
  rw [build_eq_run hdoc] at h
  have hstop := doc.behind_scopeState.coherent.finish_stop h
  omega

end ScopeTree

end Polyloft
