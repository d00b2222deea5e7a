import Mathlib.Order.Interval.Finset.Nat
import Polyloft.Proofs.Scope.Coherent

/-!
# Polyloft.Proofs.Scope.WellFormed

The shape of every scope tree, also of a document whose blocks are not balanced: frames are
numbered in the order of their first lines, each stands once among the children of its parent and
lies within it, siblings do not overlap, and the frames around a line all reach it. Where blocks
are left open the last lines are set late, and the first part of a chain is then stretched over its
branches; that is the one way in which siblings overlap.

## Proof shape

The frames behind the last line are those of `Coherent`. Finishing replaces the last line of the
frames that `stretches` tells, and of no others (`frame_finishFrames`), and such a frame has the
parent of a frame that is still open (`exists_open_of_stretches`). The fields of `WellFormed` follow
one by one.
-/

namespace Polyloft

/-- The lines of a frame; a frame without last line reaches to the end of the document. -/
def Frame.span (last : Nat) (f : Frame) : Finset Nat :=
  Finset.Icc f.start (f.stop.getD last)

theorem Frame.encloses_of_mem_span {last l : Nat} {f : Frame} (h : l ∈ f.span last) :
    f.encloses l = true := by
  rw [Frame.span, Finset.mem_Icc] at h
  rw [Frame.encloses]
  cases hstop : f.stop with
  | none => simpa using h.1
  | some e =>
      rw [hstop, Option.getD_some] at h
      simpa using h

/-- The shape of the scope tree of a document with the given last line, where `pending` are the
frames that were still open behind that line. -/
structure ScopeTree.WellFormed (last : Nat) (pending : List Nat) (tree : ScopeTree) : Prop where
  root : ∃ f, tree.frame? 0 = some f
  id_eq : ∀ {i : Nat} {f : Frame}, tree.frame? i = some f → f.id = i
  module_iff : ∀ {i : Nat} {f : Frame}, tree.frame? i = some f → (f.kind = .module ↔ i = 0)
  parent_none_iff : ∀ {i : Nat} {f : Frame}, tree.frame? i = some f → (f.parent = none ↔ i = 0)
  parent_lt : ∀ {i p : Nat} {f : Frame}, tree.frame? i = some f → f.parent = some p →
    p < i ∧ ∃ g, tree.frame? p = some g
  children : ∀ {i p : Nat} {f : Frame}, tree.frame? i = some f → f.parent = some p →
    (tree.children p).count f = 1 ∧ ∀ q, q ≠ p → f ∉ tree.children q
  listsChildren : tree.ListsChildren
  starts : ∀ {i j : Nat} {f g : Frame}, tree.frame? i = some f → tree.frame? j = some g →
    1 ≤ i → i < j → f.start < g.start
  span_nonempty : ∀ {i : Nat} {f : Frame}, tree.frame? i = some f → (f.span last).Nonempty
  span_subset : ∀ {i p : Nat} {f g : Frame}, tree.frame? i = some f → f.parent = some p →
    tree.frame? p = some g → f.span last ⊆ g.span last
  span_disjoint : ∀ {i j : Nat} {f g : Frame}, tree.frame? i = some f → tree.frame? j = some g →
    i ≠ j → f.parent = g.parent →
    Disjoint (f.span last) (g.span last) ∨ i ∈ tree.unclosed ∨ j ∈ tree.unclosed
  stop_none_iff : ∀ {i : Nat} {f : Frame}, tree.frame? i = some f →
    (f.stop = none ↔ f.isImplicit = true ∧ i ∈ pending)
  encloses : ∀ l : Nat, l < tree.lineFrames.size → ∃ f, tree.frameAt? l = some f ∧
    ∀ g ∈ tree.ancestors f.id, g.encloses l = true

namespace ScopeBuilder

/-! ### Finishing -/

/-- What finishing asks of an open frame: whether it is closed together with its switch, and the
head of its chain. -/
def chainOf (g : Frame) : Bool × Nat :=
  (g.isImplicit, g.chainHead)

/-- Does finishing with the given open frames set the last line of the frame `i`? It does for the
frames that have an `end` of their own and for the heads of their chains. -/
def stretches (frames : Array Frame) (ids : List Nat) (i : Nat) : Bool :=
  ids.any fun id => frames[id]?.any fun g => !g.isImplicit && decide (i = id ∨ i = g.chainHead)

theorem stretches_iff {frames : Array Frame} {ids : List Nat} {i : Nat} :
    stretches frames ids i = true ↔
      ∃ id ∈ ids, ∃ g,
        frames[id]? = some g ∧ g.isImplicit = false ∧ (i = id ∨ i = g.chainHead) := by
  simp only [stretches, List.any_eq_true, Option.any_eq_true, Bool.and_eq_true, Bool.not_eq_true',
    decide_eq_true_eq]

/-- Which frames are stretched depends on the constructs and chains only. -/
theorem stretches_congr {frames frames' : Array Frame} {ids : List Nat} {i : Nat}
    (h : ∀ id : Nat, frames'[id]?.map chainOf = frames[id]?.map chainOf) :
    stretches frames' ids i = stretches frames ids i := by
  rw [stretches, stretches]
  congr 1
  funext id
  have hid := h id
  cases h₁ : frames'[id]? with
  | none =>
      rw [h₁] at hid
      rw [Option.map_eq_none_iff.1 hid.symm]
  | some g' =>
      rw [h₁] at hid
      obtain ⟨g, hg, hchain⟩ := Option.map_eq_some_iff.1 hid.symm
      simp only [chainOf, Prod.mk.injEq] at hchain
      simp [hg, hchain]

theorem getElem?_modify_twice (frames : Array Frame) (last j k i : Nat) :
    ((frames.modify j (Frame.closedAt · last)).modify k (Frame.closedAt · last))[i]? =
      frames[i]?.map fun f => if i = j ∨ i = k then f.closedAt last else f := by
  rw [Array.getElem?_modify, Array.getElem?_modify]
  cases frames[i]? with
  | none => simp
  | some f =>
      by_cases hj : j = i <;> by_cases hk : k = i
      · simp [hj, hk, Frame.closedAt]
      · simp [hj, hk]
      · simp [hj, hk, eq_comm]
      · simp [hj, hk, eq_comm]

theorem chainOf_modify_twice (frames : Array Frame) (last j k i : Nat) :
    ((frames.modify j (Frame.closedAt · last)).modify k (Frame.closedAt · last))[i]?.map chainOf =
      frames[i]?.map chainOf := by
  rw [getElem?_modify_twice]
  cases frames[i]? with
  | none => rfl
  | some f =>
      simp only [Option.map_some, Option.some.injEq]
      split <;> rfl

/-- Finishing gives the stretched frames the last line of the document. -/
theorem frame_finishFrames (last : Nat) (ids : List Nat) (frames : Array Frame)
    (unclosed : List Nat) (i : Nat) :
    (finishFrames last ids (frames, unclosed)).1[i]? =
      frames[i]?.map fun f => if stretches frames ids i then f.closedAt last else f := by
  induction ids generalizing frames unclosed with
  | nil => simp [finishFrames, stretches]
  | cons id ids ih =>
      rw [finishFrames]
      cases hg : frames[id]? with
      | none =>
          rw [ih]
          simp [stretches, hg]
      | some g =>
          dsimp only
          by_cases himp : g.isImplicit = true
          · rw [if_pos himp, ih]
            simp [stretches, hg, himp]
          · rw [if_neg himp, ih]
            have hcons : stretches frames (id :: ids) i =
                (decide (i = id ∨ i = g.chainHead) || stretches frames ids i) := by
              simp [stretches, hg, himp]
            rw [show (fun g : Frame => { g with stop := some last }) = (Frame.closedAt · last) from
              rfl, stretches_congr (chainOf_modify_twice frames last id g.chainHead),
              getElem?_modify_twice, hcons]
            cases frames[i]? with
            | none => rfl
            | some f =>
                by_cases hi : i = id ∨ i = g.chainHead <;>
                  by_cases hs : stretches frames ids i = true <;> simp [hi, hs, Frame.closedAt]

theorem mem_finishFrames_of_mem (last : Nat) (ids : List Nat) (frames : Array Frame)
    {unclosed : List Nat} {k : Nat} (hk : k ∈ unclosed) :
    k ∈ (finishFrames last ids (frames, unclosed)).2 := by
  induction ids generalizing frames unclosed with
  | nil => exact hk
  | cons id ids ih =>
      rw [finishFrames]
      split
      · exact ih frames hk
      · split
        · exact ih frames hk
        · refine ih _ ?_
          split
          · exact hk
          · exact List.mem_append_left _ hk

/-- The heads of the chains that are left open are reported. -/
theorem mem_finishFrames (last : Nat) (ids : List Nat) (frames : Array Frame)
    (unclosed : List Nat) {k id : Nat} (hid : id ∈ ids)
    (hg : frames[id]?.map chainOf = some (false, k)) :
    k ∈ (finishFrames last ids (frames, unclosed)).2 := by
  induction ids generalizing frames unclosed with
  | nil => cases hid
  | cons x ids ih =>
      rw [finishFrames]
      cases hx : frames[x]? with
      | none =>
          rcases List.mem_cons.1 hid with rfl | hmem
          · rw [hx] at hg
            cases hg
          · exact ih frames unclosed hmem hg
      | some g =>
          dsimp only
          rcases List.mem_cons.1 hid with rfl | hmem
          · rw [hx, Option.map_some, Option.some.injEq, chainOf, Prod.mk.injEq] at hg
            rw [if_neg (by simp [hg.1]), hg.2]
            apply mem_finishFrames_of_mem
            split
            · rename_i hk
              simpa using hk
            · simp
          · split
            · exact ih frames unclosed hmem hg
            · refine ih _ _ hmem ?_
              exact (chainOf_modify_twice frames last x g.chainHead id).trans hg

/-! ### The finished tree -/

variable {b : ScopeBuilder} {last n : Nat}

/-- A frame of the finished tree is one of the pass, with the last line of the document if it is
stretched. -/
theorem of_frame_finish {i : Nat} {f' : Frame} (h : (b.finish last).frame? i = some f') :
    ∃ f, b.frames[i]? = some f ∧
      f' = if stretches b.frames b.pending i then f.closedAt last else f := by
  have hframe := frame_finishFrames last b.pending.reverse b.frames [] i
  rw [show stretches b.frames b.pending.reverse i = stretches b.frames b.pending i from
    List.any_reverse] at hframe
  rw [show (b.finish last).frame? i =
    (finishFrames last b.pending.reverse (b.frames, [])).1[i]? from rfl, hframe] at h
  obtain ⟨f, hf, rfl⟩ := Option.map_eq_some_iff.1 h
  exact ⟨f, hf, rfl⟩

theorem frame_finish {i : Nat} {f : Frame} (h : b.frames[i]? = some f) :
    (b.finish last).frame? i =
      some (if stretches b.frames b.pending i then f.closedAt last else f) := by
  have hframe := frame_finishFrames last b.pending.reverse b.frames [] i
  rw [show stretches b.frames b.pending.reverse i = stretches b.frames b.pending i from
    List.any_reverse, h] at hframe
  exact hframe

namespace Coherent

/-- Two frames with the same parent are not both open, so the head of an open chain is closed
unless it is the open frame itself. -/
theorem eq_of_open (h : Coherent last n b) {i j : Nat} {f g : Frame} (hf : b.frames[i]? = some f)
    (hg : b.frames[j]? = some g) (hi : i ∈ b.pending) (hj : j ∈ b.pending)
    (hp : f.parent = g.parent) : i = j := by
  have hpos : ∀ {k}, k ∈ b.pending → 0 < k := by
    intro k hk
    obtain ⟨f, -, hpos⟩ := h.linked.exists_frame hk
    exact hpos
  rcases Nat.lt_trichotomy i j with hlt | heq | hlt
  · obtain ⟨e, he, -⟩ := h.siblings hf hg (hpos hi) hlt hp
    rw [(h.isOpen hf (hpos hi)).2 hi] at he
    cases he
  · exact heq
  · obtain ⟨e, he, -⟩ := h.siblings hg hf (hpos hj) hlt hp.symm
    rw [(h.isOpen hg (hpos hj)).2 hj] at he
    cases he

/-- A stretched frame is open, or the head of an open chain; it has the parent of an open frame. -/
theorem exists_open_of_stretches (h : Coherent last n b) {i : Nat} {f : Frame}
    (hf : b.frames[i]? = some f) (hs : stretches b.frames b.pending i = true) :
    0 < i ∧ ∃ id ∈ b.pending, ∃ g, b.frames[id]? = some g ∧ g.isImplicit = false ∧
      f.parent = g.parent ∧ (i = id ∨ i ∈ (b.finish last).unclosed) := by
  obtain ⟨id, hid, g, hg, himp, hi⟩ := stretches_iff.1 hs
  obtain ⟨-, -, hpos⟩ := h.linked.exists_frame hid
  rcases hi with rfl | hi
  · rw [hg, Option.some.injEq] at hf
    subst hf
    exact ⟨hpos, i, hid, g, hg, himp, rfl, .inl rfl⟩
  · have hmem : i ∈ (b.finish last).unclosed := by
      refine mem_finishFrames last _ b.frames [] (List.mem_reverse.2 hid) ?_
      rw [hg, Option.map_some, chainOf, himp, ← hi]
    rw [Frame.chainHead] at hi
    cases hhead : g.head with
    | none =>
        rw [hhead, Option.getD_none, h.id_eq hg] at hi
        subst hi
        rw [hg, Option.some.injEq] at hf
        subst hf
        exact ⟨hpos, i, hid, g, hg, himp, rfl, .inl rfl⟩
    | some k =>
        rw [hhead, Option.getD_some] at hi
        subst hi
        obtain ⟨f', hf', hkpos, hfp, -⟩ := h.heads hg hhead
        rw [hf, Option.some.injEq] at hf'
        subst hf'
        exact ⟨hkpos, id, hid, g, hg, himp, hfp, .inr hmem⟩

/-- An open frame with an `end` of its own is stretched, a clause is not. -/
theorem stretches_iff_of_open (h : Coherent last n b) {i : Nat} {f : Frame}
    (hf : b.frames[i]? = some f) (hi : i ∈ b.pending) :
    stretches b.frames b.pending i = true ↔ f.isImplicit = false := by
  constructor
  · intro hs
    obtain ⟨-, id, hid, g, hg, himp, hp, -⟩ := h.exists_open_of_stretches hf hs
    have := h.eq_of_open hf hg hi hid hp
    subst this
    rw [hf, Option.some.injEq] at hg
    rwa [hg]
  · intro himp
    exact stretches_iff.2 ⟨i, hi, f, hf, himp, .inl rfl⟩

end Coherent

/-! ### Fields -/

namespace Coherent

variable {i j p : Nat} {f g f' g' : Frame}

/-- Only the last line of a frame may change at the end. -/
theorem finish_fields (hf' : (b.finish last).frame? i = some f') :
    ∃ f, b.frames[i]? = some f ∧ ∃ e, f' = { f with stop := e } := by
  obtain ⟨f, hf, rfl⟩ := of_frame_finish hf'
  refine ⟨f, hf, ?_⟩
  split
  · exact ⟨some last, rfl⟩
  · exact ⟨f.stop, rfl⟩

theorem finish_id_eq (h : Coherent last n b) (hf' : (b.finish last).frame? i = some f') :
    f'.id = i := by
  obtain ⟨f, hf, e, rfl⟩ := finish_fields hf'
  show f.id = i
  exact h.id_eq hf

theorem finish_module_iff (h : Coherent last n b) (hf' : (b.finish last).frame? i = some f') :
    f'.kind = .module ↔ i = 0 := by
  obtain ⟨f, hf, e, rfl⟩ := finish_fields hf'
  show f.construct.kind = .module ↔ i = 0
  constructor
  · intro hkind
    by_contra hi
    have hne := h.construct_ne hf (Nat.pos_of_ne_zero hi)
    cases hc : f.construct <;> rw [hc] at hkind hne <;> first | exact hne rfl | cases hkind
  · rintro rfl
    rw [h.root, Option.some.injEq] at hf
    rw [← hf]
    rfl

theorem finish_parent_none_iff (h : Coherent last n b)
    (hf' : (b.finish last).frame? i = some f') : f'.parent = none ↔ i = 0 := by
  obtain ⟨f, hf, e, rfl⟩ := finish_fields hf'
  show f.parent = none ↔ i = 0
  constructor
  · intro hnone
    by_contra hi
    obtain ⟨p, hp, -⟩ := h.parent_lt hf (Nat.pos_of_ne_zero hi)
    rw [hnone] at hp
    cases hp
  · rintro rfl
    rw [h.root, Option.some.injEq] at hf
    rw [← hf]
    rfl

theorem finish_parent_lt (h : Coherent last n b) (hf' : (b.finish last).frame? i = some f')
    (hp : f'.parent = some p) : p < i ∧ ∃ g, (b.finish last).frame? p = some g := by
  obtain ⟨f, hf, e, rfl⟩ := finish_fields hf'
  have hlt : p < i := h.lt_of_parent hf hp
  have hsize : p < b.frames.size := Nat.lt_trans hlt (Array.getElem?_eq_some_iff.1 hf).1
  exact ⟨hlt, _, frame_finish (Array.getElem?_eq_getElem hsize)⟩

/-- The lists of children are those of the finished frames. -/
theorem finish_childIds (h : Coherent last n b) :
    (b.finish last).childIds = childLists (b.finish last).frames.toList := by
  refine h.childIds_eq.trans (childLists_congr fun i => ?_).symm
  rw [show (b.finish last).frames = (finishFrames last b.pending.reverse (b.frames, [])).1 from rfl,
    frame_finishFrames]
  cases b.frames[i]? with
  | none => rfl
  | some f =>
      rw [Option.map_some]
      split <;> rfl

theorem finish_listsChildren (h : Coherent last n b) : (b.finish last).ListsChildren :=
  ScopeTree.listsChildren_of_childIds h.finish_id_eq
    (fun hf' hp => (h.finish_parent_lt hf' hp).1) h.finish_childIds

/-- A frame stands once in the list of all frames. -/
theorem finish_children (h : Coherent last n b) (hf' : (b.finish last).frame? i = some f')
    (hp : f'.parent = some p) :
    ((b.finish last).children p).count f' = 1 ∧ ∀ q, q ≠ p → f' ∉ (b.finish last).children q := by
  constructor
  · -- Frames are told apart by their numbers.
    have hnodup : (b.finish last).frames.toList.Nodup := by
      refine List.nodup_iff_getElem?_ne_getElem?.2 ?_
      intro j k hjk hk heq
      rw [Array.getElem?_toList, Array.getElem?_toList] at heq
      have hlt : k < (b.finish last).frames.size := by simpa using hk
      have hk' := Array.getElem?_eq_getElem hlt
      have hidj := h.finish_id_eq (heq.trans hk')
      have hidk := h.finish_id_eq hk'
      omega
    rw [h.finish_listsChildren, List.count_filter (by simp [hp])]
    refine List.count_eq_one_of_mem hnodup ?_
    exact Array.mem_toList_iff.2 (Array.mem_of_getElem? hf')
  · intro q hq hmem
    rw [h.finish_listsChildren] at hmem
    have := (List.mem_filter.1 hmem).2
    rw [hp, beq_iff_eq, Option.some.injEq] at this
    exact hq this.symm

theorem finish_starts (h : Coherent last n b) (hf' : (b.finish last).frame? i = some f')
    (hg' : (b.finish last).frame? j = some g') (hi : 1 ≤ i) (hij : i < j) :
    f'.start < g'.start := by
  obtain ⟨f, hf, e, rfl⟩ := finish_fields hf'
  obtain ⟨g, hg, e', rfl⟩ := finish_fields hg'
  show f.start < g.start
  exact h.starts hf hg hi hij

/-- The last line of a frame, or of the document for a clause that is still open. -/
theorem finish_stop (h : Coherent (n - 1) n b) (hf' : (b.finish (n - 1)).frame? i = some f') :
    f'.start ≤ f'.stop.getD (n - 1) ∧ f'.stop.getD (n - 1) ≤ n - 1 := by
  obtain ⟨f, hf, rfl⟩ := of_frame_finish hf'
  rcases Nat.eq_zero_or_pos i with rfl | hi
  · rw [h.root, Option.some.injEq] at hf
    subst hf
    split <;> exact ⟨Nat.zero_le _, Nat.le_refl _⟩
  · have hstart := h.start_lt hf hi
    split
    · show f.start ≤ n - 1 ∧ n - 1 ≤ n - 1
      omega
    · cases hstop : f.stop with
      | none =>
          rw [Option.getD_none]
          omega
      | some e =>
          have := h.stop_lt hf hi hstop
          rw [Option.getD_some]
          omega

theorem finish_span_nonempty (h : Coherent (n - 1) n b)
    (hf' : (b.finish (n - 1)).frame? i = some f') : (f'.span (n - 1)).Nonempty :=
  Finset.nonempty_Icc.2 (h.finish_stop hf').1

theorem finish_span_subset (h : Coherent (n - 1) n b)
    (hf' : (b.finish (n - 1)).frame? i = some f') (hp : f'.parent = some p)
    (hg' : (b.finish (n - 1)).frame? p = some g') : f'.span (n - 1) ⊆ g'.span (n - 1) := by
  have hlt := (h.finish_parent_lt hf' hp).1
  have hend := (h.finish_stop hf').2
  obtain ⟨f, hf, hf''⟩ := of_frame_finish hf'
  obtain ⟨g, hg, hg''⟩ := of_frame_finish hg'
  have hfp : f.parent = some p := by
    rw [hf''] at hp
    split at hp <;> exact hp
  have hstart : g'.start ≤ f'.start := by
    rcases Nat.eq_zero_or_pos p with rfl | hpos
    · rw [h.root, Option.some.injEq] at hg
      subst hg
      rw [hg'']
      split <;> exact Nat.zero_le _
    · exact Nat.le_of_lt (h.finish_starts hg' hf' hpos hlt)
  refine Finset.Icc_subset_Icc hstart ?_
  -- Only a parent that ends before the document does is of interest.
  rcases Nat.eq_zero_or_pos p with rfl | hpos
  · rw [h.root, Option.some.injEq] at hg
    subst hg
    rw [hg'']
    split <;> exact hend
  cases hs : stretches b.frames b.pending p with
  | true =>
      rw [hg'', hs]
      exact hend
  | false =>
      rw [hs, if_neg Bool.false_ne_true] at hg''
      subst hg''
      cases hstop : g'.stop with
      | none => exact hend
      | some e =>
          obtain ⟨e', he', hle⟩ := h.nested hf hfp hpos hg hstop
          have hnot : stretches b.frames b.pending i ≠ true := by
            -- A stretched frame has an open sibling, which could not lie in a closed parent.
            intro hi
            obtain ⟨-, id, hid, k, hk, -, hkp, -⟩ := h.exists_open_of_stretches hf hi
            obtain ⟨e'', he'', -⟩ := h.nested hk (hkp.symm.trans hfp) hpos hg hstop
            obtain ⟨-, -, hidpos⟩ := h.linked.exists_frame hid
            rw [(h.isOpen hk hidpos).2 hid] at he''
            cases he''
          rw [hf'', if_neg hnot, he']
          exact hle

theorem finish_disjoint_of_lt (h : Coherent (n - 1) n b)
    (hf' : (b.finish (n - 1)).frame? i = some f') (hg' : (b.finish (n - 1)).frame? j = some g')
    (hi : 0 < i) (hij : i < j) (hp : f'.parent = g'.parent) :
    Disjoint (f'.span (n - 1)) (g'.span (n - 1)) ∨ i ∈ (b.finish (n - 1)).unclosed := by
  obtain ⟨g, hg, e, rfl⟩ := finish_fields hg'
  obtain ⟨f, hf, hf''⟩ := of_frame_finish hf'
  have hfp : f.parent = g.parent := by
    rw [hf''] at hp
    split at hp <;> exact hp
  obtain ⟨e', he', hlt⟩ := h.siblings hf hg hi hij hfp
  cases hs : stretches b.frames b.pending i with
  | false =>
      rw [hs, if_neg Bool.false_ne_true] at hf''
      subst hf''
      left
      rw [Finset.disjoint_left]
      intro l hl hl'
      rw [Frame.span, he', Option.getD_some, Finset.mem_Icc] at hl
      have hl'' := (Finset.mem_Icc.1 hl').1
      have : g.start ≤ l := hl''
      omega
  | true =>
      -- The earlier frame is not open, so it was stretched as the head of an open chain.
      right
      obtain ⟨-, id, hid, k, hk, -, -, rfl | hmem⟩ := h.exists_open_of_stretches hf hs
      · rw [(h.isOpen hf hi).2 hid] at he'
        cases he'
      · exact hmem

theorem finish_span_disjoint (h : Coherent (n - 1) n b)
    (hf' : (b.finish (n - 1)).frame? i = some f') (hg' : (b.finish (n - 1)).frame? j = some g')
    (hij : i ≠ j) (hp : f'.parent = g'.parent) :
    Disjoint (f'.span (n - 1)) (g'.span (n - 1)) ∨ i ∈ (b.finish (n - 1)).unclosed ∨
      j ∈ (b.finish (n - 1)).unclosed := by
  -- The module has no sibling.
  have hzero : i = 0 ↔ j = 0 := by
    rw [← h.finish_parent_none_iff hf', ← h.finish_parent_none_iff hg', hp]
  rcases Nat.lt_or_gt_of_ne hij with hlt | hlt
  · rcases h.finish_disjoint_of_lt hf' hg' (by omega) hlt hp with hd | hmem
    · exact .inl hd
    · exact .inr (.inl hmem)
  · rcases h.finish_disjoint_of_lt hg' hf' (by omega) hlt hp.symm with hd | hmem
    · exact .inl hd.symm
    · exact .inr (.inr hmem)

theorem finish_stop_none_iff (h : Coherent last n b)
    (hf' : (b.finish last).frame? i = some f') :
    f'.stop = none ↔ f'.isImplicit = true ∧ i ∈ b.pending := by
  obtain ⟨f, hf, hf''⟩ := of_frame_finish hf'
  cases hs : stretches b.frames b.pending i with
  | true =>
      rw [hs, if_pos rfl] at hf''
      subst hf''
      constructor
      · intro hnone
        cases hnone
      · rintro ⟨himp, hi⟩
        rw [show (f.closedAt last).isImplicit = f.isImplicit from rfl,
          (h.stretches_iff_of_open hf hi).1 hs] at himp
        cases himp
  | false =>
      rw [hs, if_neg Bool.false_ne_true] at hf''
      subst hf''
      have himp : i ∈ b.pending → f'.isImplicit = true := by
        intro hi
        rw [← Bool.not_eq_false, ← h.stretches_iff_of_open hf hi, hs]
        exact Bool.false_ne_true
      rcases Nat.eq_zero_or_pos i with rfl | hpos
      · have hroot := h.root
        rw [hf, Option.some.injEq] at hroot
        constructor
        · intro hnone
          rw [hroot] at hnone
          cases hnone
        · rintro ⟨-, hmem⟩
          obtain ⟨-, -, hlt⟩ := h.linked.exists_frame hmem
          omega
      · rw [h.isOpen hf hpos]
        exact ⟨fun hi => ⟨himp hi, hi⟩, And.right⟩

end Coherent

/-! ### Lines -/

/-- The frames around a frame reach every line that it reaches. -/
theorem mem_span_of_mem_ancestors {tree : ScopeTree} {l : Nat}
    (hsub : ∀ {i p : Nat} {f g : Frame}, tree.frame? i = some f → f.parent = some p →
      tree.frame? p = some g → f.span last ⊆ g.span last) (i : Nat) :
    ∀ f, tree.frame? i = some f → l ∈ f.span last → ∀ g ∈ tree.ancestors i, l ∈ g.span last := by
  induction i using Nat.strongRecOn with
  | ind i ih =>
      intro f hf hl g hg
      rw [ScopeTree.ancestors, show tree.frames[i]? = some f from hf] at hg
      dsimp only at hg
      cases hp : f.parent with
      | none =>
          rw [hp, List.mem_singleton] at hg
          rwa [hg]
      | some p =>
          rw [hp] at hg
          dsimp only at hg
          by_cases hlt : p < i
          · rw [if_pos hlt, List.mem_cons] at hg
            rcases hg with rfl | hg
            · exact hl
            · cases hpf : tree.frame? p with
              | none =>
                  rw [ScopeTree.ancestors, show tree.frames[p]? = none from hpf] at hg
                  cases hg
              | some k => exact ih p hlt k hpf (hsub hf hp hpf hl) g hg
          · rw [if_neg hlt, List.mem_singleton] at hg
            rwa [hg]

theorem Behind.finish_encloses (h : Behind (n - 1) n b) (l : Nat) (hl : l < n) :
    ∃ f, (b.finish (n - 1)).frameAt? l = some f ∧
      ∀ g ∈ (b.finish (n - 1)).ancestors f.id, g.encloses l = true := by
  obtain ⟨k, hk⟩ : ∃ k, b.lineFrames[l]? = some k :=
    ⟨_, Array.getElem?_eq_getElem (by rw [h.size_eq]; exact hl)⟩
  obtain ⟨f, hf, hstart, hstop⟩ := h.coherent.lines hk
  have hframe : (b.finish (n - 1)).frame? k =
      some (if stretches b.frames b.pending k then f.closedAt (n - 1) else f) := frame_finish hf
  refine ⟨if stretches b.frames b.pending k then f.closedAt (n - 1) else f, ?_, ?_⟩
  · rw [ScopeTree.frameAt?, if_neg (by omega), Int.toNat_natCast,
      show (b.finish (n - 1)).lineFrames = b.lineFrames from rfl, hk]
    exact hframe
  · intro g hg
    rw [h.coherent.finish_id_eq hframe] at hg
    have hmem := mem_span_of_mem_ancestors (l := l) h.coherent.finish_span_subset k _ hframe
    refine Frame.encloses_of_mem_span (hmem ?_ g hg)
    rw [Frame.span, Finset.mem_Icc]
    -- Stretching a frame only adds lines to it.
    split
    · show f.start ≤ l ∧ l ≤ n - 1
      omega
    · refine ⟨hstart, ?_⟩
      rcases Nat.eq_zero_or_pos k with rfl | hpos
      · rw [h.coherent.root, Option.some.injEq] at hf
        rw [← hf]
        show l ≤ n - 1
        omega
      · cases he : f.stop with
        | none =>
            rw [Option.getD_none]
            omega
        | some e => exact hstop e hpos he

theorem Behind.wellFormed_finish (h : Behind (n - 1) n b) :
    (b.finish (n - 1)).WellFormed (n - 1) b.pending where
  root := ⟨_, frame_finish h.coherent.root⟩
  id_eq := h.coherent.finish_id_eq
  module_iff := h.coherent.finish_module_iff
  parent_none_iff := h.coherent.finish_parent_none_iff
  parent_lt := h.coherent.finish_parent_lt
  children := h.coherent.finish_children
  listsChildren := h.coherent.finish_listsChildren
  starts := h.coherent.finish_starts
  span_nonempty := h.coherent.finish_span_nonempty
  span_subset := h.coherent.finish_span_subset
  span_disjoint := h.coherent.finish_span_disjoint
  stop_none_iff := h.coherent.finish_stop_none_iff
  encloses := by
    intro l hl
    rw [show (b.finish (n - 1)).lineFrames = b.lineFrames from rfl, h.size_eq] at hl
    exact h.finish_encloses l hl

end ScopeBuilder

/-- Every line of a document has a frame. -/
theorem ScopeTree.size_lineFrames_build {doc : Document} (h : doc.IsNumbered) :
    (ScopeTree.build doc).lineFrames.size = doc.size := by
  rw [build_eq_run h]
  exact doc.behind_scopeState.size_eq

/-- The scope tree of a numbered document is well formed. -/
theorem ScopeTree.wellFormed_of_isNumbered {doc : Document} (h : doc.IsNumbered) :
    (ScopeTree.build doc).WellFormed (doc.size - 1) doc.scopeState.pending := by
  rw [build_eq_run h]
  exact doc.behind_scopeState.wellFormed_finish

/-- The scope tree of every text is well formed, and gives every line of the text a frame. -/
theorem ScopeTree.wellFormed_build (text : List Char) (uri : Option String) :
    let doc := Document.ofText text uri
    (ScopeTree.build doc).lineFrames.size = doc.size ∧
      (ScopeTree.build doc).WellFormed (doc.size - 1) doc.scopeState.pending :=
  ⟨size_lineFrames_build (Document.isNumbered_ofText text uri),
    wellFormed_of_isNumbered (Document.isNumbered_ofText text uri)⟩

/-! ### Around a line -/

/-- The frames around a frame are frames of the tree. -/
theorem ScopeTree.exists_frame_of_mem_ancestors {tree : ScopeTree} (i : Nat) {g : Frame}
    (hg : g ∈ tree.ancestors i) : ∃ j, tree.frame? j = some g := by
  induction i using Nat.strongRecOn with
  | ind i ih =>
      rw [ScopeTree.ancestors] at hg
      split at hg
      · simp at hg
      · rename_i f hf
        split at hg
        · exact ⟨i, List.mem_singleton.1 hg ▸ hf⟩
        · split at hg
          · rename_i p _ hlt
            rcases List.mem_cons.1 hg with rfl | hg
            · exact ⟨i, hf⟩
            · exact ih p hlt hg
          · exact ⟨i, List.mem_singleton.1 hg ▸ hf⟩

/-- The frames around a line are frames of the tree. -/
theorem ScopeTree.exists_frame_of_mem_around {tree : ScopeTree} {line : Int} {g : Frame}
    (hg : g ∈ tree.around line) : ∃ j, tree.frame? j = some g := by
  rw [around] at hg
  cases hat : tree.frameAt? line with
  | none =>
      rw [hat] at hg
      cases hg
  | some f =>
      rw [hat] at hg
      exact exists_frame_of_mem_ancestors _ hg

/-- Every frame around a line reaches over it. -/
theorem ScopeTree.encloses_of_mem_around {doc : Document} (hdoc : doc.IsNumbered) {line : Int}
    {f : Frame} (hf : f ∈ (ScopeTree.build doc).around line) : f.encloses line = true := by
  rw [around] at hf
  cases hat : (ScopeTree.build doc).frameAt? line with
  | none =>
      rw [hat] at hf
      cases hf
  | some g =>
      rw [hat] at hf
      rw [frameAt?] at hat
      split at hat
      · cases hat
      · rename_i hline
        obtain ⟨l, rfl⟩ := Int.eq_ofNat_of_zero_le (Int.not_lt.1 hline)
        obtain ⟨k, hk, hframe⟩ := Option.bind_eq_some_iff.1 hat
        obtain ⟨g', hg', hencloses⟩ :=
          (wellFormed_of_isNumbered hdoc).encloses l (Array.getElem?_eq_some_iff.1 hk).1
        rw [frameAt?, if_neg hline, hk, Option.bind_some, hframe, Option.some.injEq] at hg'
        subst hg'
        exact hencloses f hf

end Polyloft
