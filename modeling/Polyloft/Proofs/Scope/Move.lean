import Polyloft.Proofs.Scope.Coherent

/-!
# Polyloft.Proofs.Scope.Move

What one line can do to the open blocks, as a relation. The pass decides by the tokens of a line and
by the innermost open block; once it has decided, it makes one of seven moves. A line that closes a
block or starts a clause may close clauses first, which is kept apart from the move itself
(`Sheds`). Everything that is to be shown of all lines can be shown of these moves, and the pass
need not be opened again (`exists_move`).

A move leaves the frames alone that are not open: it may set the last line of open frames, and the
frames that it adds start on its own line (`Keeps`).
-/

namespace Polyloft

/-- The tokens behind the first word of a line, annotations and modifiers left out. -/
def behindFirstWord (tokens : List Token) : List Token :=
  (tokens.dropWhile Token.isDeclarationPrefix).tail

/-- A construct that may be part of a chain. -/
def Construct.isBranch (c : Construct) : Bool :=
  c.isIfBranch || c.isTryBranch

namespace ScopeBuilder

/-! ### Moves -/

/-- The frame of the branch that continues the innermost chain on line `n`. -/
def nextBranch (b : ScopeBuilder) (c : Construct) (n : Nat) : Frame :=
  (b.pop (n - 1)).newFrame ⟨c, none⟩ n
    (some ((b.frames[b.top]?.map Frame.chainHead).getD b.top))

/-- Clauses that are innermost are closed, any number of them. -/
inductive Sheds : ScopeBuilder → ScopeBuilder → Prop where
  | refl (b : ScopeBuilder) : Sheds b b
  | clause {b b' : ScopeBuilder} (open_ : b.pending ≠ [])
      (isClause : b.topConstruct.isClause = true) (l : Nat) (rest : Sheds (b.pop l) b') :
      Sheds b b'

/-- What line `n` with the given tokens does to the open blocks. -/
inductive Move (tokens : List Token) (n : Nat) (b : ScopeBuilder) : ScopeBuilder → Prop where
  | stay (noEnd : isTerminator tokens = false) : Move tokens n b (b.assign b.top)
  | enter {o : Opening} (noEnd : isTerminator tokens = false) (notModule : o.construct ≠ .module) :
      Move tokens n b ((b.assign b.top).push (b.newFrame o n none))
  | inline {o : Opening} (noEnd : isTerminator tokens = false) :
      Move tokens n b ((b.addInline (b.newFrame o n none)).assign b.frames.size)
  | branch {c : Construct} (noEnd : isTerminator tokens = false) (open_ : b.pending ≠ [])
      (isBranch : c.isBranch = true) (continues : c.continues b.topConstruct = true)
      (openEnd : hasEnd (behindFirstWord tokens) = false) :
      Move tokens n b
        (((b.pop (n - 1)).assign (b.pop (n - 1)).top).push (b.nextBranch c n))
  | lastBranch {c : Construct} (noEnd : isTerminator tokens = false) (open_ : b.pending ≠ [])
      (isBranch : c.isBranch = true) (continues : c.continues b.topConstruct = true)
      (ends : hasEnd (behindFirstWord tokens) = true) :
      Move tokens n b
        ((((b.pop (n - 1)).push (b.nextBranch c n)).pop n).assign b.frames.size)
  | leave (ends : isTerminator tokens = true) (open_ : b.pending ≠ [])
      (notClause : b.topConstruct.isClause = false) :
      Move tokens n b ((b.pop n).assign b.top)
  | stray (ends : isTerminator tokens = true) (none_ : b.pending = []) :
      Move tokens n b { b.assign 0 with stray := b.stray ++ [n] }

variable {tokens : List Token} {n last : Nat} {b b' b'' : ScopeBuilder}

/-! ### Every line is a move -/

theorem size_frames_pop (b : ScopeBuilder) (l : Nat) : (b.pop l).frames.size = b.frames.size := by
  simp [pop, setStop]

/-- Closing clauses stops at a block with an end of its own. -/
theorem sheds_popClauses {ids : List Nat} (h : b.pending = ids) (l : Nat) :
    Sheds b (popClauses l ids b) ∧ ((popClauses l ids b).pending ≠ [] →
      (popClauses l ids b).topConstruct.isClause = false) := by
  induction ids generalizing b with
  | nil => exact ⟨.refl b, fun hne => absurd h hne⟩
  | cons id ids ih =>
      rw [popClauses]
      by_cases hc : b.topConstruct.isClause = true
      · rw [if_pos hc]
        have htail : (b.pop l).pending = ids := by
          rw [pop, h, List.tail_cons]
        obtain ⟨hsheds, hstop⟩ := ih htail
        exact ⟨.clause (by simp [h]) hc l hsheds, hstop⟩
      · rw [if_neg hc]
        exact ⟨.refl b, fun _ => by simpa using hc⟩

theorem exists_move_close (b : ScopeBuilder) (hend : isTerminator tokens = true) :
    ∃ b₀, Sheds b b₀ ∧ Move tokens n b₀ (b.close n) := by
  obtain ⟨hsheds, hstop⟩ := sheds_popClauses (b := b) rfl n
  refine ⟨_, hsheds, ?_⟩
  rw [close]
  dsimp only
  split
  · rename_i hempty
    exact .stray hend (by simpa using hempty)
  · rename_i hne
    have hopen : (popClauses n b.pending b).pending ≠ [] := by simpa using hne
    exact .leave hend hopen (hstop hopen)

theorem isClause_of_isBranch {c : Construct} (h : c.isBranch = true) : c.isClause = false := by
  cases c <;> first | rfl | cases h

/-- A branch that carries the end of its chain is closed at once. -/
theorem close_push {c : Construct} (hc : c.isBranch = true) :
    ((b.pop (n - 1)).push (b.nextBranch c n)).close n =
      (((b.pop (n - 1)).push (b.nextBranch c n)).pop n).assign b.frames.size := by
  have hid : (b.nextBranch c n).id = b.frames.size := size_frames_pop b (n - 1)
  have htop : ((b.pop (n - 1)).push (b.nextBranch c n)).top = b.frames.size := hid
  have hconstruct : ((b.pop (n - 1)).push (b.nextBranch c n)).topConstruct = c := by
    rw [topConstruct, htop, ← size_frames_pop b (n - 1), push, Array.getElem?_push_size]
    rfl
  have hpop : popClauses n ((b.pop (n - 1)).push (b.nextBranch c n)).pending
      ((b.pop (n - 1)).push (b.nextBranch c n)) =
        (b.pop (n - 1)).push (b.nextBranch c n) := by
    rw [show ((b.pop (n - 1)).push (b.nextBranch c n)).pending =
      (b.nextBranch c n).id :: b.pending.tail from rfl, popClauses, hconstruct,
      isClause_of_isBranch hc]
    rfl
  rw [close, hpop, ← htop]
  rfl

theorem move_ordinary (b : ScopeBuilder) (n : Nat) (hend : isTerminator tokens = false) :
    Move tokens n b (b.ordinary tokens n) := by
  rw [ordinary]
  split
  · exact .stay hend
  · rename_i o ho
    dsimp only
    split
    · exact .inline hend
    · exact .enter hend (opening?_construct ho).1

theorem move_branch? {c : Construct} {rest : List Token} (hend : isTerminator tokens = false)
    (hc : c.isBranch = true) (hrest : behindFirstWord tokens = rest)
    (hb : b.branch? c n (hasEnd rest) = some b') : Move tokens n b b' := by
  subst hrest
  rw [branch?] at hb
  split at hb
  · rename_i hcond
    rw [Bool.and_eq_true] at hcond
    have hopen : b.pending ≠ [] := by simpa using hcond.1
    dsimp only at hb
    split at hb
    · rename_i hends
      rw [← Option.some.inj hb, ← nextBranch, close_push hc]
      exact .lastBranch hend hopen hc hcond.2 hends
    · rename_i hends
      rw [← Option.some.inj hb]
      exact .branch hend hopen hc hcond.2 (by simpa using hends)
  · simp at hb

theorem Coherent.sheds_endClause (h : Coherent last n b) (l : Nat) : Sheds b (b.endClause l) := by
  rw [endClause]
  split
  · rename_i hc
    exact .clause (h.pending_ne_nil_of_isClause hc) hc (l - 1) (.refl _)
  · exact .refl b

theorem isBranch_of_branchConstruct? {s : String} {c : Construct}
    (h : branchConstruct? s = some c) : c.isBranch = true := by
  unfold branchConstruct? at h
  split at h <;> cases h <;> rfl

theorem ne_module_of_clauseConstruct? {s : String} {c : Construct}
    (h : clauseConstruct? s = some c) : c ≠ .module := by
  unfold clauseConstruct? at h
  split at h <;> cases h <;> decide

theorem exists_move_statement (h : Behind last n b) (hend : isTerminator tokens = false) :
    ∃ b₀, Sheds b b₀ ∧ Move tokens n b₀ (b.statement tokens n) := by
  have hordinary : ∃ b₀, Sheds b b₀ ∧ Move tokens n b₀ (b.ordinary tokens n) :=
    ⟨b, .refl b, move_ordinary b n hend⟩
  rw [statement]
  split
  · exact hordinary
  · rename_i first rest hlead
    split
    · split
      · rename_i c hc
        cases hb : b.branch? c n (hasEnd rest) with
        | none => exact hordinary
        | some b' =>
            have hrest : behindFirstWord tokens = rest := by
              rw [behindFirstWord, hlead, List.tail_cons]
            exact ⟨b, .refl b, move_branch? hend (isBranch_of_branchConstruct? hc) hrest hb⟩
      · split
        · rename_i c hc
          refine ⟨b.endClause n, h.coherent.sheds_endClause n, ?_⟩
          dsimp only
          cases hb : (b.endClause n).clause? c n with
          | none => exact move_ordinary _ n hend
          | some b' =>
              rw [clause?] at hb
              split at hb <;> cases hb
              exact .enter hend (ne_module_of_clauseConstruct? hc)
        · exact hordinary
    · exact hordinary

/-- Whatever a line is, it closes some clauses and then makes a move. -/
theorem exists_move (h : Behind last n b) (tokens : List Token) :
    ∃ b₀, Sheds b b₀ ∧ Move tokens n b₀ (b.stepAt tokens n) := by
  rw [stepAt]
  split
  · rename_i hempty
    refine ⟨b, .refl b, .stay ?_⟩
    rw [List.isEmpty_iff.1 hempty]
    rfl
  · split
    · rename_i hend
      exact exists_move_close b hend
    · rename_i hend
      exact exists_move_statement h (by simpa using hend)

/-! ### What a move keeps -/

/-- From `b` to `b'` open frames may have been closed and frames that start on line `n` added. -/
structure Keeps (n : Nat) (b b' : ScopeBuilder) : Prop where
  frame : ∀ {i : Nat} {f : Frame}, b.frames[i]? = some f →
    ∃ e, b'.frames[i]? = some { f with stop := e } ∧ (i ∉ b.pending → e = f.stop)
  fresh : ∀ {i : Nat} {f : Frame}, b'.frames[i]? = some f →
    (∃ g, b.frames[i]? = some g) ∨ f.start = n
  pending : ∀ {i : Nat}, i ∈ b'.pending → i < b.frames.size → i ∈ b.pending

namespace Keeps

theorem refl (n : Nat) (b : ScopeBuilder) : Keeps n b b where
  frame := fun {_ f} hf => ⟨f.stop, hf, fun _ => rfl⟩
  fresh := fun hf => .inl ⟨_, hf⟩
  pending := fun hi _ => hi

theorem trans (h : Keeps n b b') (h' : Keeps n b' b'') : Keeps n b b'' where
  frame := by
    intro i f hf
    obtain ⟨e, he, hstop⟩ := h.frame hf
    obtain ⟨e', he', hstop'⟩ := h'.frame he
    refine ⟨e', he', fun hi => ?_⟩
    -- The frame was there before, so the first step has not opened it either.
    have hi' : i ∉ b'.pending := fun hmem => hi (h.pending hmem (lt_size hf))
    exact (hstop' hi').trans (hstop hi)
  fresh := by
    intro i f hf
    rcases h'.fresh hf with ⟨g, hg⟩ | hstart
    · rcases h.fresh hg with hold | hstart
      · exact .inl hold
      · obtain ⟨e, he, -⟩ := h'.frame hg
        rw [hf, Option.some.injEq] at he
        exact .inr (by rw [he]; exact hstart)
    · exact .inr hstart
  pending := by
    intro i hi hlt
    obtain ⟨e, he, -⟩ := h.frame (Array.getElem?_eq_getElem hlt)
    exact h.pending (h'.pending hi (lt_size he)) hlt

theorem pop (hopen : b.pending ≠ []) (n l : Nat) : Keeps n b (b.pop l) where
  frame := by
    intro i f hf
    refine ⟨if b.top = i then some l else f.stop, ?_, fun hi => if_neg ?_⟩
    · rw [frame_pop hf]
      split <;> rfl
    · rintro rfl
      exact hi (Coherent.top_mem hopen)
  fresh := by
    intro i f hf
    obtain ⟨g, hg, -⟩ := of_frame_pop hf
    exact .inl ⟨g, hg⟩
  pending := fun hi _ => List.mem_of_mem_tail hi

/-- A frame that starts on the line is added behind the others. -/
theorem add {f : Frame} (hstart : f.start = n) (hframes : b'.frames = b.frames.push f)
    (hpending : ∀ i ∈ b'.pending, i ∈ b.pending ∨ i = b.frames.size) : Keeps n b b' where
  frame := by
    intro i g hg
    exact ⟨g.stop, by rw [hframes]; exact frame_push hg, fun _ => rfl⟩
  fresh := by
    intro i g hg
    rw [hframes] at hg
    rcases of_frame_push hg with ⟨-, rfl⟩ | hold
    · exact .inr hstart
    · exact .inl ⟨g, hold⟩
  pending := fun {i} hi hlt => (hpending i hi).resolve_right (Nat.ne_of_lt hlt)

theorem assign (h : Keeps n b b') (id : Nat) : Keeps n b (b'.assign id) where
  frame := h.frame
  fresh := h.fresh
  pending := h.pending

theorem of_sheds (h : Sheds b b') (n : Nat) : Keeps n b b' := by
  induction h with
  | refl b => exact refl n b
  | clause hopen _ l _ ih => exact (pop hopen n l).trans ih

theorem pushBranch (b : ScopeBuilder) (c : Construct) (n : Nat) :
    Keeps n (b.pop (n - 1)) ((b.pop (n - 1)).push (b.nextBranch c n)) := by
  refine add rfl rfl fun i hi => ?_
  rcases List.mem_cons.1 hi with rfl | hi
  · exact .inr rfl
  · exact .inl hi

theorem of_move (h : Move tokens n b b') : Keeps n b b' := by
  cases h with
  | stay => exact (refl n b).assign _
  | enter => exact add rfl rfl fun i hi => (List.mem_cons.1 hi).symm
  | inline => exact add rfl rfl fun i hi => .inl hi
  | @branch c _ hopen =>
      exact ((pop hopen n (n - 1)).trans (pushBranch b c n)).assign (b.pop (n - 1)).top
  | @lastBranch c _ hopen =>
      have hpush := (pop hopen n (n - 1)).trans (pushBranch b c n)
      exact (hpush.trans (pop (List.cons_ne_nil _ _) n n)).assign _
  | leave _ hopen => exact (pop hopen n n).assign _
  | stray =>
      have hassign := (refl n b).assign 0
      exact { hassign with }

end Keeps

/-- What a line keeps. -/
theorem keeps_stepAt (h : Behind last n b) (tokens : List Token) :
    Keeps n b (b.stepAt tokens n) := by
  obtain ⟨b₀, hsheds, hmove⟩ := exists_move h tokens
  exact (Keeps.of_sheds hsheds n).trans (.of_move hmove)

end ScopeBuilder

end Polyloft
