import Polyloft.Proofs.Scope.Ledger

/-!
# Polyloft.Proofs.Scope.Balance

Blocks and the lines that end them balance, in every document. The openers are as many as the lines
that are to end a block, but for the blocks that are left open and the lines that are stray; and
each opener for itself is ended by one line or reported as unclosed, not both and not neither.

## Proof shape

The books of the pass (`Ledger`) hold behind the last line. Finishing sets last lines only, and not
those of blocks that a line has ended (`not_stretches_of_closedHead?`), so the tree tells the same
about every line. What it reports as unclosed are the chain heads of the open blocks from the
outside in (`unclosed_finish`), and these are numbered in that order.
-/

namespace Polyloft

namespace ScopeBuilder

variable {b : ScopeBuilder} {last n : Nat}

theorem openerIds_eq (frames : Array Frame) :
    openerIds frames = (frames.toList.filter Frame.isOpener).map Frame.id := by
  rw [← List.filterMap_eq_map, List.filterMap_filter]
  rfl

/-! ### Open blocks -/

namespace Coherent

variable (h : Coherent last n b)
include h

/-- The head of the chain of an open block comes before it, or is it. -/
theorem chainHead_le {i : Nat} {f : Frame} (hf : b.frames[i]? = some f) (hi : i ∈ b.pending) :
    f.chainHead ≤ i := by
  obtain ⟨-, -, hpos⟩ := h.linked.exists_frame hi
  rw [Frame.chainHead]
  cases hhead : f.head with
  | none =>
      rw [Option.getD_none, h.id_eq hf]
  | some k =>
      rw [Option.getD_some]
      obtain ⟨g, hg, -, hparent, -⟩ := h.heads hf hhead
      by_contra hlt
      -- Of two frames with one parent the earlier one is closed.
      obtain ⟨e, he, -⟩ := h.siblings hf hg hpos (Nat.lt_of_not_le hlt) hparent.symm
      rw [(h.isOpen hf hpos).2 hi] at he
      cases he

/-- The chain head of an open block lies in the same frame as the block. -/
theorem parent_chainHead {i k : Nat} {f : Frame} (hf : b.frames[i]? = some f)
    (hk : f.chainHead = k) : ∃ g, b.frames[k]? = some g ∧ g.parent = f.parent ∧ g.head = none := by
  rw [Frame.chainHead] at hk
  cases hhead : f.head with
  | none =>
      rw [hhead, Option.getD_none, h.id_eq hf] at hk
      exact ⟨f, hk ▸ hf, rfl, hhead⟩
  | some j =>
      rw [hhead, Option.getD_some] at hk
      subst hk
      obtain ⟨g, hg, -, hparent, hnone⟩ := h.heads hf hhead
      exact ⟨g, hg, hparent, hnone⟩

/-- Chain heads of open blocks are numbered from the outside in. -/
theorem pairwise_heads {ids : List Nat} (hl : Linked b.frames ids)
    (hids : ∀ id ∈ ids, id ∈ b.pending) :
    (ids.filterMap (headOf? b.frames)).Pairwise (· > ·) ∧
      ∀ k ∈ ids.filterMap (headOf? b.frames), k ≤ ids.headD 0 := by
  induction ids with
  | nil => simp
  | cons x xs ih =>
      obtain ⟨⟨f, hf, -, hparent⟩, htail⟩ := hl
      obtain ⟨hpairwise, hbound⟩ := ih htail fun id hid => hids id (List.mem_cons_of_mem _ hid)
      have hlt : xs.headD 0 < x := h.lt_of_parent hf hparent
      cases hhead : headOf? b.frames x with
      | none =>
          rw [List.filterMap_cons_none hhead]
          refine ⟨hpairwise, fun k hk => ?_⟩
          have := hbound k hk
          show k ≤ x
          omega
      | some k =>
          have hk : f.chainHead = k := by
            rw [headOf?, hf] at hhead
            obtain ⟨g, hg, hgk⟩ := Option.map_eq_some_iff.1 hhead
            obtain ⟨hg, -⟩ := Option.filter_eq_some_iff.1 hg
            rwa [Option.some.inj hg]
          -- Block and chain head have one parent, which is the next open block.
          obtain ⟨g, hg, hgp, -⟩ := h.parent_chainHead hf hk
          have hafter : xs.headD 0 < k := h.lt_of_parent hg (hgp.trans hparent)
          have hle : k ≤ x := hk ▸ h.chainHead_le hf (hids x List.mem_cons_self)
          rw [List.filterMap_cons_some hhead]
          refine ⟨List.pairwise_cons.2 ⟨fun j hj => ?_, hpairwise⟩, fun j hj => ?_⟩
          · have := hbound j hj
            omega
          · rcases List.mem_cons.1 hj with rfl | hj
            · exact hle
            · have := hbound j hj
              show j ≤ x
              omega

theorem pairwise_openHeads : b.openHeads.Pairwise (· > ·) :=
  (h.pairwise_heads h.linked fun _ hid => hid).1

/-- The openers are told apart by their numbers. -/
theorem nodup_openerIds : (openerIds b.frames).Nodup := by
  have hids : b.frames.toList.map Frame.id = List.range b.frames.size := by
    refine List.ext_getElem? fun i => ?_
    rw [List.getElem?_map, Array.getElem?_toList]
    cases hf : b.frames[i]? with
    | none =>
        rw [List.getElem?_eq_none]
        · rfl
        · simpa using hf
    | some f =>
        rw [List.getElem?_range (lt_size hf), Option.map_some, h.id_eq hf]
  have hsublist : (openerIds b.frames).Sublist (b.frames.toList.map Frame.id) := by
    rw [openerIds_eq]
    exact List.filter_sublist.map _
  exact hsublist.nodup (hids ▸ List.nodup_range)

end Coherent

/-! ### What is reported as unclosed -/

theorem headOf?_congr {frames frames' : Array Frame}
    (h : ∀ id : Nat, frames'[id]?.map chainOf = frames[id]?.map chainOf) :
    headOf? frames' = headOf? frames := by
  have hread (fs : Array Frame) (id : Nat) :
      headOf? fs id = (fs[id]?.map chainOf).bind fun c => if c.1 then none else some c.2 := by
    rw [headOf?]
    cases fs[id]? with
    | none => rfl
    | some f =>
        show (Option.filter _ (some f)).map _ = if f.isImplicit then none else some f.chainHead
        cases himp : f.isImplicit <;> simp [himp]
  funext id
  rw [hread, hread, h]

/-- The chain heads are reported in the order of the open frames, none of them twice. -/
theorem unclosed_finishFrames (last : Nat) {ids : List Nat} {frames : Array Frame}
    (unclosed : List Nat)
    (h : (unclosed ++ ids.filterMap (headOf? frames)).Nodup) :
    (finishFrames last ids (frames, unclosed)).2 = unclosed ++ ids.filterMap (headOf? frames) := by
  induction ids generalizing frames unclosed with
  | nil => exact (List.append_nil _).symm
  | cons x xs ih =>
      rw [finishFrames]
      cases hf : frames[x]? with
      | none =>
          have hnone : headOf? frames x = none := by rw [headOf?, hf]; rfl
          rw [List.filterMap_cons_none hnone] at h ⊢
          exact ih unclosed h
      | some f =>
          dsimp only
          by_cases himp : f.isImplicit = true
          · have hnone : headOf? frames x = none := by simp [headOf?, hf, himp]
            rw [List.filterMap_cons_none hnone] at h ⊢
            rw [if_pos himp]
            exact ih unclosed h
          · have hsome : headOf? frames x = some f.chainHead := by simp [headOf?, hf, himp]
            rw [List.filterMap_cons_some hsome] at h ⊢
            have hnew : unclosed.contains f.chainHead = false := by
              rw [← Bool.not_eq_true, List.contains_iff_mem]
              exact fun hmem => List.disjoint_of_nodup_append h hmem List.mem_cons_self
            have hsame := headOf?_congr (chainOf_modify_twice frames last x f.chainHead)
            rw [if_neg himp, hnew, if_neg Bool.false_ne_true, ← hsame]
            rw [← hsame, List.append_cons] at h
            exact (ih _ h).trans (List.append_cons _ _ _).symm

theorem Coherent.unclosed_finish (h : Coherent last n b) :
    (b.finish last).unclosed = b.openHeads.reverse := by
  have hheads : b.pending.reverse.filterMap (headOf? b.frames) = b.openHeads.reverse :=
    List.filterMap_reverse
  have hnodup : b.openHeads.reverse.Nodup :=
    List.nodup_reverse.2 (h.pairwise_openHeads.imp Nat.ne_of_gt)
  rw [← hheads] at hnodup ⊢
  exact unclosed_finishFrames last [] hnodup

/-! ### The books of the finished tree -/

theorem openerIds_finish (b : ScopeBuilder) (last : Nat) :
    openerIds (b.finish last).frames = openerIds b.frames := by
  refine filterMap_toList_congr fun i => ?_
  rw [show (b.finish last).frames[i]? = _ from
    frame_finishFrames last b.pending.reverse b.frames [] i, Option.map_map]
  refine congrArg (Option.map · _) (funext fun f => ?_)
  show Frame.openerId? (if _ then _ else _) = _
  split <;> rfl

theorem prolongs_finish (b : ScopeBuilder) (last n : Nat) :
    b.soFar.Prolongs n (b.finish last) where
  frame := by
    intro i f hf
    refine ⟨if stretches b.frames b.pending i then some last else f.stop, ?_⟩
    rw [show (b.finish last).frames[i]? = _ from frame_finish hf]
    split <;> rfl
  fresh := fun hf => .inl (let ⟨g, hg, _⟩ := of_frame_finish hf; ⟨g, hg⟩)
  line := fun _ => rfl

namespace Ledger

variable {done : List Line} {line : Line} (h : Ledger done b) (hb : Behind last n b)
include h hb

theorem nodup : (b.openHeads ++ done.filterMap b.soFar.closedHead?).Nodup :=
  h.perm.nodup_iff.2 hb.coherent.nodup_openerIds

/-- The last line of a block that a line has ended is left as it is. -/
theorem not_stretches_of_closedHead? (hline : line ∈ done) {i : Nat} {f : Frame}
    (hf : b.frames[i]? = some f) (hstop : f.stop = some line.index)
    (hclosed : b.soFar.closedHead? line = some f.chainHead) :
    stretches b.frames b.pending i = false := by
  rw [← Bool.not_eq_true, stretches_iff]
  rintro ⟨id, hid, g, hg, himp, rfl | hi⟩
  · exact hb.notMem_pending hf hstop hid
  · -- The frame would head an open chain, which the line has ended.
    obtain ⟨f', hf', -, hhead⟩ := hb.coherent.parent_chainHead hg hi.symm
    rw [hf, Option.some.injEq] at hf'
    subst hf'
    have hopen : i ∈ b.openHeads := by
      refine List.mem_filterMap.2 ⟨id, hid, ?_⟩
      rw [headOf?, hg, hi]
      simp [himp]
    have hended : i ∈ done.filterMap b.soFar.closedHead? := by
      refine List.mem_filterMap.2 ⟨line, hline, ?_⟩
      rw [hclosed, Frame.chainHead, hhead, Option.getD_none, hb.coherent.id_eq hf]
    exact List.disjoint_of_nodup_append (h.nodup hb) hopen hended

variable (hdone : ∀ line ∈ done, line.index < n)
include hdone

/-- A line ends the block of an opener if the finished frame of the line stops there. -/
theorem closes_iff (hline : line ∈ done) {id : Nat} (hid : 1 ≤ id) :
    (b.finish last).closes line id = true ↔ b.soFar.closedHead? line = some id := by
  obtain ⟨k, f, hk, hf, hat⟩ := hb.exists_frameAt? (hdone line hline)
  have hframe : (b.finish last).frameAt? line.index =
      some (if stretches b.frames b.pending k then f.closedAt last else f) := by
    rw [ScopeTree.frameAt?, if_neg (by omega), Int.toNat_natCast,
      show (b.finish last).lineFrames = b.lineFrames from rfl, hk]
    exact frame_finish hf
  have hclosed : b.soFar.closedHead? line = some id ↔
      b.soFar.endsBlock line = true ∧ f.kind ≠ .module ∧ f.chainHead = id := by
    rw [ScopeTree.closedHead?, hat]
    cases b.soFar.endsBlock line <;> simp [Option.filter_some]
  have hkind (hhead : f.chainHead = id) : f.kind ≠ .module := by
    rcases Nat.eq_zero_or_pos k with rfl | hpos
    · rw [hb.coherent.root, Option.some.injEq] at hf
      rw [← hf] at hhead
      exact absurd hhead (Nat.ne_of_lt hid)
    · exact kind_ne_module_of_ne (hb.coherent.construct_ne hf hpos)
  rw [ScopeTree.closes, (prolongs_finish b last n).endsBlock (hdone line hline), hframe, hclosed,
    Bool.and_eq_true, Option.any_some, Bool.and_eq_true, beq_iff_eq, beq_iff_eq]
  constructor
  · rintro ⟨hends, -, hhead⟩
    have hhead' : f.chainHead = id := by
      rw [← hhead]
      split <;> rfl
    exact ⟨hends, hkind hhead', hhead'⟩
  · rintro ⟨hends, hmodule, hhead⟩
    have hstop := h.stop_eq line hline f hends hat hmodule
    rw [h.not_stretches_of_closedHead? hb hline hf hstop (hhead ▸ hclosed.2 ⟨hends, hmodule, hhead⟩)]
    exact ⟨hends, hstop, hhead⟩

end Ledger

end ScopeBuilder

/-! ### Balance -/

/-- Lines that are counted on one of two sides. -/
theorem countP_eq_add {α : Type} {p q r : α → Bool} {xs : List α}
    (h : ∀ x ∈ xs, (p x).toNat = (q x).toNat + (r x).toNat) :
    xs.countP p = xs.countP q + xs.countP r := by
  induction xs with
  | nil => rfl
  | cons x xs ih =>
      have hx := h x List.mem_cons_self
      have hxs := ih fun y hy => h y (List.mem_cons_of_mem x hy)
      simp only [List.countP_cons, Bool.cond_eq_ite, Bool.toNat] at hx ⊢
      omega

namespace ScopeTree

/-- The openers of a tree against the lines that end blocks, the stray lines and the blocks that are
reported as unclosed. -/
structure Balanced (lines : List Line) (tree : ScopeTree) : Prop where
  /-- Openers and stray lines are as many as terminators, last branches and unclosed blocks. -/
  count : tree.openers.length + tree.stray.length =
    lines.countP (fun line => isTerminator line.codeTokens) + lines.countP tree.isLastBranch +
      tree.unclosed.length
  nodup : tree.unclosed.Nodup
  /-- What is unclosed are openers, in the order of their first lines. -/
  unclosed : ∃ fs : List Frame, tree.unclosed = fs.map Frame.id ∧
    fs.Pairwise (·.start < ·.start) ∧ ∀ f ∈ fs, f ∈ tree.openers
  /-- Each opener is ended by one line or is unclosed, not both and not neither. -/
  once : ∀ f ∈ tree.openers, lines.countP (tree.closes · f.id) + tree.unclosed.count f.id = 1

end ScopeTree

namespace ScopeBuilder

variable {b : ScopeBuilder} {last n : Nat} {done : List Line}

theorem map_id_openers (b : ScopeBuilder) (last : Nat) :
    (b.finish last).openers.map Frame.id = openerIds b.frames := by
  rw [← openerIds_finish b last, openerIds_eq]
  rfl

theorem Behind.frame_of_mem_openers (hb : Behind last n b) {f : Frame}
    (hf : f ∈ (b.finish last).openers) : (b.finish last).frame? f.id = some f ∧ 1 ≤ f.id := by
  obtain ⟨hmem, hopener⟩ := List.mem_filter.1 hf
  obtain ⟨i, hi⟩ := List.mem_iff_getElem?.1 hmem
  rw [Array.getElem?_toList] at hi
  rw [hb.coherent.finish_id_eq hi]
  refine ⟨hi, Nat.pos_of_ne_zero fun hzero => ?_⟩
  rw [Frame.isOpener, (hb.coherent.finish_module_iff hi).2 hzero] at hopener
  simp at hopener

namespace Ledger

variable (h : Ledger done b) (hb : Behind last n b)
include h

/-- A line that is to end a block ends one or is stray. -/
theorem countP_endsBlock : done.countP b.soFar.endsBlock =
    (done.filterMap b.soFar.closedHead?).length + b.stray.length := by
  have hends : done.countP b.soFar.endsBlock =
      done.countP (fun l => (b.soFar.closedHead? l).isSome) +
        done.countP fun l => b.soFar.endsBlock l && (b.soFar.closedHead? l).isNone :=
    countP_eq_add fun l _ => by
      rw [ScopeTree.closedHead?]
      cases b.soFar.endsBlock l
      · rfl
      · rw [if_pos rfl, Bool.true_and, ← Option.not_isSome]
        cases Option.isSome _ <;> rfl
  rw [hends, List.length_filterMap_eq_countP, h.stray_eq, List.length_map,
    ← List.countP_eq_length_filter]

/-- A line that is to end a block is a terminator or a last branch, not both. -/
theorem countP_terminators (last : Nat) (hdone : ∀ line ∈ done, line.index < n) :
    done.countP b.soFar.endsBlock =
      done.countP (fun l => isTerminator l.codeTokens) +
        done.countP (b.finish last).isLastBranch :=
  countP_eq_add fun l hl => by
    rw [ScopeTree.endsBlock, ScopeTree.isLastBranch, ScopeTree.isLastBranch,
      (prolongs_finish b last n).continuesChain (hdone l hl)]
    cases hc : b.soFar.continuesChain l
    · simp
    · rw [h.branch l hl hc]
      simp

include hb

/-- What is reported as unclosed and what lines have ended are the openers, each once. -/
theorem perm_finish : ((b.finish last).unclosed ++ done.filterMap b.soFar.closedHead?).Perm
    (openerIds b.frames) := by
  rw [hb.coherent.unclosed_finish]
  exact ((List.reverse_perm _).append_right _).trans h.perm

theorem exists_opener {k : Nat} (hk : k ∈ (b.finish last).unclosed) :
    ∃ f ∈ (b.finish last).openers, f.id = k ∧ (b.finish last).frame? k = some f ∧ 1 ≤ k := by
  have hmem := (h.perm_finish hb).subset (List.mem_append_left _ hk)
  rw [← map_id_openers b last] at hmem
  obtain ⟨f, hf, rfl⟩ := List.mem_map.1 hmem
  exact ⟨f, hf, rfl, hb.frame_of_mem_openers hf⟩

theorem exists_unclosed : ∃ fs : List Frame, (b.finish last).unclosed = fs.map Frame.id ∧
    fs.Pairwise (·.start < ·.start) ∧ ∀ f ∈ fs, f ∈ (b.finish last).openers := by
  have hpairwise : (b.finish last).unclosed.Pairwise (· < ·) := by
    rw [hb.coherent.unclosed_finish, List.pairwise_reverse]
    exact hb.coherent.pairwise_openHeads
  refine ⟨(b.finish last).unclosed.filterMap (b.finish last).frame?, ?_, ?_, ?_⟩
  · rw [List.map_filterMap]
    refine List.filterMap_some.symm.trans (List.filterMap_congr fun k hk => ?_)
    obtain ⟨f, -, rfl, hf, -⟩ := h.exists_opener hb hk
    rw [hf]
    rfl
  · refine List.pairwise_filterMap.2 (hpairwise.imp_of_mem fun hi _ hlt f hf g hg => ?_)
    obtain ⟨-, -, -, -, hpos⟩ := h.exists_opener hb hi
    exact hb.coherent.finish_starts hf hg hpos hlt
  · intro f hf
    obtain ⟨k, hk, hkf⟩ := List.mem_filterMap.1 hf
    obtain ⟨g, hmem, -, hg, -⟩ := h.exists_opener hb hk
    rw [hkf, Option.some.injEq] at hg
    rwa [hg]

theorem balanced_finish (hdone : ∀ line ∈ done, line.index < n) :
    (b.finish last).Balanced done where
  count := by
    have hlength := (h.perm_finish hb).length_eq
    rw [← map_id_openers b last, List.length_map, List.length_append] at hlength
    have hends := h.countP_endsBlock
    rw [h.countP_terminators last hdone] at hends
    rw [show (b.finish last).stray = b.stray from rfl]
    omega
  nodup := ((h.perm_finish hb).nodup_iff.2 hb.coherent.nodup_openerIds).of_append_left
  unclosed := h.exists_unclosed hb
  once := by
    intro f hf
    have hmem : f.id ∈ openerIds b.frames := map_id_openers b last ▸ List.mem_map_of_mem hf
    have hcount := List.count_eq_one_of_mem hb.coherent.nodup_openerIds hmem
    rw [← (h.perm_finish hb).count_eq, List.count_append, List.count_filterMap] at hcount
    have hcloses : done.countP ((b.finish last).closes · f.id) =
        done.countP fun l => b.soFar.closedHead? l == some f.id :=
      List.countP_congr fun l hl => by
        rw [h.closes_iff hb hdone hl (hb.frame_of_mem_openers hf).2, beq_iff_eq]
    omega

end Ledger

end ScopeBuilder

/-- Blocks and the lines that end them balance in the scope tree of every text. -/
theorem ScopeTree.balanced_build (text : List Char) (uri : Option String) :
    let doc := Document.ofText text uri
    (ScopeTree.build doc).Balanced doc.lines := by
  intro doc
  have hdoc : doc.IsNumbered := Document.isNumbered_ofText text uri
  rw [build_eq_run hdoc]
  refine (doc.ledger_scopeState hdoc).balanced_finish doc.behind_scopeState fun line hline => ?_
  obtain ⟨n, hn⟩ := List.mem_iff_getElem?.1 hline
  rw [hdoc.index_eq hn]
  exact (List.getElem?_eq_some_iff.1 hn).1

end Polyloft
