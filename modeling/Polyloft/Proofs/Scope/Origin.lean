import Polyloft.Proofs.Scope.WellFormed

/-!
# Polyloft.Proofs.Scope.Origin

Where frames come from. Every frame but the module was opened by the line on which it starts: its
construct and its name are what the tokens of that line open, unless it is a branch of a chain or a
clause of a switch, which has no name. So the frame whose header stands on a line and the opening of
that line are the same thing seen from two sides.

## Proof shape

`ScopeBuilder.Traced` is an invariant of the pass. Closing a frame changes its last line only, and
each of the three ways to add a frame adds one that starts on the line just read.
-/

namespace Polyloft

/-- The frame is what a line with these tokens opens, or it is a branch or a clause. -/
def Frame.OpenedBy (tokens : List Token) (f : Frame) : Prop :=
  opening? tokens = some ⟨f.construct, f.name⟩ ∧ f.head = none ∨
    f.name = none ∧ (f.head.isSome = true ∨ f.isImplicit = true)

namespace ScopeBuilder

/-- Every frame but the module was opened by its first line. -/
def Traced (lines : List (List Token)) (b : ScopeBuilder) : Prop :=
  ∀ (i : Nat) (f : Frame), b.frames[i]? = some f → 0 < i →
    ∃ tokens, lines[f.start]? = some tokens ∧ f.OpenedBy tokens

namespace Traced

variable {lines : List (List Token)} {b : ScopeBuilder} {tokens : List Token} {n : Nat}

theorem init (lines : List (List Token)) (count : Nat) : Traced lines (init count) := by
  intro i f hf hi
  rw [ScopeBuilder.init, Array.getElem?_eq_none hi] at hf
  simp at hf

theorem pop (h : Traced lines b) (l : Nat) : Traced lines (b.pop l) := by
  intro i f hf hi
  obtain ⟨g, hg, ⟨e, rfl⟩, -⟩ := of_frame_pop hf
  exact h i g hg hi

theorem push (h : Traced lines b) {f : Frame} (hline : lines[f.start]? = some tokens)
    (hopened : f.OpenedBy tokens) : Traced lines (b.push f) := by
  intro i g hg hi
  rcases of_frame_push hg with ⟨-, rfl⟩ | hold
  · exact ⟨tokens, hline, hopened⟩
  · exact h i g hold hi

theorem addInline (h : Traced lines b) {f : Frame} (hline : lines[f.start]? = some tokens)
    (hopened : f.OpenedBy tokens) : Traced lines (b.addInline f) := by
  intro i g hg hi
  rcases of_frame_push hg with ⟨-, rfl⟩ | hold
  · exact ⟨tokens, hline, hopened⟩
  · exact h i g hold hi

theorem assign (h : Traced lines b) (id : Nat) : Traced lines (b.assign id) := h

theorem popClauses (h : Traced lines b) (l : Nat) (ids : List Nat) :
    Traced lines (ScopeBuilder.popClauses l ids b) := by
  induction ids generalizing b with
  | nil => exact h
  | cons id ids ih =>
      rw [ScopeBuilder.popClauses]
      split
      · exact ih (h.pop l)
      · exact h

theorem close (h : Traced lines b) (l : Nat) : Traced lines (b.close l) := by
  have hpopped := h.popClauses l b.pending
  rw [ScopeBuilder.close]
  dsimp only
  split
  · exact hpopped
  · exact (hpopped.pop l).assign _

theorem endClause (h : Traced lines b) (l : Nat) : Traced lines (b.endClause l) := by
  rw [ScopeBuilder.endClause]
  split
  · exact h.pop _
  · exact h

section

variable (hline : lines[n]? = some tokens)
include hline

theorem branch? (h : Traced lines b) {c : Construct} {closes : Bool} {b' : ScopeBuilder}
    (hb : b.branch? c n closes = some b') : Traced lines b' := by
  rw [ScopeBuilder.branch?] at hb
  split at hb
  · dsimp only at hb
    split at hb <;> obtain rfl := Option.some.inj hb
    · exact ((h.pop (n - 1)).push hline (.inr ⟨rfl, .inl rfl⟩)).close n
    · exact ((h.pop (n - 1)).assign _).push hline (.inr ⟨rfl, .inl rfl⟩)
  · simp at hb

theorem clause? (h : Traced lines b) {c : Construct} (hc : c.isClause = true) {b' : ScopeBuilder}
    (hb : b.clause? c n = some b') : Traced lines b' := by
  rw [ScopeBuilder.clause?] at hb
  split at hb
  · obtain rfl := Option.some.inj hb
    exact (h.assign _).push hline (.inr ⟨rfl, .inr hc⟩)
  · simp at hb

theorem ordinary (h : Traced lines b) : Traced lines (b.ordinary tokens n) := by
  rw [ScopeBuilder.ordinary]
  split
  · exact h.assign _
  · rename_i o ho
    dsimp only
    split
    · exact (h.addInline hline (.inl ⟨ho, rfl⟩)).assign _
    · exact (h.assign _).push hline (.inl ⟨ho, rfl⟩)

omit hline in
theorem getD {o : Option ScopeBuilder} (ho : ∀ b', o = some b' → Traced lines b')
    (h : Traced lines b) : Traced lines (o.getD b) := by
  cases o with
  | none => exact h
  | some b' => exact ho b' rfl

theorem statement (h : Traced lines b) : Traced lines (b.statement tokens n) := by
  rw [ScopeBuilder.statement]
  split
  · exact h.ordinary hline
  · split
    · split
      · exact getD (fun _ hb => h.branch? hline hb) (h.ordinary hline)
      · split
        · rename_i c hc
          have hended := h.endClause n
          exact getD (fun _ hb => hended.clause? hline (isClause_of_clauseConstruct? hc) hb)
            (hended.ordinary hline)
        · exact h.ordinary hline
    · exact h.ordinary hline

theorem stepAt (h : Traced lines b) : Traced lines (b.stepAt tokens n) := by
  rw [ScopeBuilder.stepAt]
  split
  · exact h.assign _
  · split
    · exact h.close n
    · exact h.statement hline

end

theorem run (h : Traced lines b) {xs : List (List Token)} (hxs : lines.drop n = xs) :
    Traced lines (b.run n xs) := by
  induction xs generalizing n b with
  | nil => exact h
  | cons tokens xs ih =>
      have hline : lines[n]? = some tokens := by rw [← List.head?_drop, hxs, List.head?_cons]
      refine ih (h.stepAt hline) ?_
      rw [← List.drop_drop, hxs, List.drop_succ_cons, List.drop_zero]

end Traced

end ScopeBuilder

/-! ### Trees -/

namespace ScopeTree

variable {doc : Document} (hdoc : doc.IsNumbered) {f : Frame} {i : Nat}
include hdoc

theorem exists_line_of_frame? (hf : (build doc).frame? i = some f) (hi : 0 < i) :
    ∃ l ∈ doc.lines, l.index = f.start ∧ f.OpenedBy l.codeTokens := by
  rw [build_eq_run hdoc] at hf
  obtain ⟨g, hg, e, rfl⟩ := ScopeBuilder.Coherent.finish_fields hf
  have htraced : ScopeBuilder.Traced (doc.lines.map Line.codeTokens) doc.scopeState :=
    (ScopeBuilder.Traced.init _ _).run rfl
  obtain ⟨tokens, hline, hopened⟩ := htraced _ _ hg hi
  rw [List.getElem?_map] at hline
  obtain ⟨l, hl, rfl⟩ := Option.map_eq_some_iff.1 hline
  exact ⟨l, List.mem_of_getElem? hl, hdoc.index_eq hl, hopened⟩

theorem name_module (hf : (build doc).frame? 0 = some f) : f.name = none := by
  rw [build_eq_run hdoc] at hf
  obtain ⟨g, hg, e, rfl⟩ := ScopeBuilder.Coherent.finish_fields hf
  rw [doc.behind_scopeState.coherent.root] at hg
  obtain rfl := Option.some.inj hg
  rfl

/-- The frame whose header stands on a line is what the tokens of the line open. -/
theorem opening_of_openedAt? {l : Line} (hl : l ∈ doc.lines)
    (h : (build doc).openedAt? l.index = some f) :
    (build doc).frame? f.id = some f ∧ 0 < f.id ∧ f.start = l.index ∧
      opening? l.codeTokens = some ⟨f.construct, f.name⟩ := by
  have hwf := wellFormed_of_isNumbered hdoc
  obtain ⟨i, hi⟩ := Array.mem_iff_getElem?.1 (Array.mem_of_find?_eq_some h)
  have hfound := Array.find?_some h
  simp only [Bool.and_eq_true, beq_iff_eq, Bool.not_eq_true', Option.isNone_iff_eq_none,
    Int.ofNat_inj] at hfound
  obtain ⟨⟨⟨hstart, hparent⟩, hhead⟩, himplicit⟩ := hfound
  obtain rfl : f.id = i := hwf.id_eq hi
  have hpos : 0 < f.id := by
    refine Nat.pos_of_ne_zero fun hzero => ?_
    rw [(hwf.parent_none_iff hi).2 hzero] at hparent
    simp at hparent
  refine ⟨hi, hpos, hstart, ?_⟩
  obtain ⟨l', hl', hindex, hopened⟩ := exists_line_of_frame? hdoc hi hpos
  obtain rfl : l' = l := hdoc.eq_of_index hl' hl (hindex.trans hstart)
  rcases hopened with ⟨hopening, -⟩ | ⟨-, hsome | himp⟩
  · exact hopening
  · simp [hhead] at hsome
  · simp [himplicit] at himp

/-- A frame with a name is the one whose header stands on its first line. -/
theorem openedAt?_of_name {name : String} (hf : (build doc).frame? i = some f)
    (hname : f.name = some name) :
    ∃ l ∈ doc.lines, l.index = f.start ∧ (build doc).openedAt? l.index = some f := by
  have hwf := wellFormed_of_isNumbered hdoc
  have hpos : 0 < i := by
    refine Nat.pos_of_ne_zero fun hzero => ?_
    rw [hzero] at hf
    rw [name_module hdoc hf] at hname
    simp at hname
  obtain ⟨l, hl, hindex, hopened⟩ := exists_line_of_frame? hdoc hf hpos
  refine ⟨l, hl, hindex, ?_⟩
  have hparent : f.parent.isSome = true := by
    refine Option.isSome_iff_ne_none.2 fun hnone => ?_
    exact Nat.ne_of_gt hpos ((hwf.parent_none_iff hf).1 hnone)
  have hheader : f.head = none ∧ f.isImplicit = false := by
    rcases hopened with ⟨hopening, hhead⟩ | ⟨hnone, -⟩
    · exact ⟨hhead, (opening?_construct hopening).2⟩
    · rw [hnone] at hname
      simp at hname
  have hfound : ((build doc).openedAt? l.index).isSome = true := by
    refine Array.find?_isSome.2 ⟨f, Array.mem_of_getElem? hf, ?_⟩
    simp [hindex, hparent, hheader]
  obtain ⟨g, hg⟩ := Option.isSome_iff_exists.1 hfound
  obtain ⟨hframe, hgpos, hstart, -⟩ := opening_of_openedAt? hdoc hl hg
  -- No two frames start on one line, the module apart.
  have hid : g.id = i := by
    rcases Nat.lt_trichotomy g.id i with hlt | heq | hgt
    · have := hwf.starts hframe hf hgpos hlt
      omega
    · exact heq
    · have := hwf.starts hf hframe hpos hgt
      omega
  rw [hid, hf] at hframe
  rw [hg, hframe]

end ScopeTree

end Polyloft
