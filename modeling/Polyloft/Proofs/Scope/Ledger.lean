import Mathlib.Data.List.Nodup
import Polyloft.Proofs.Scope.Move
import Polyloft.Proofs.Scope.WellFormed

/-!
# Polyloft.Proofs.Scope.Ledger

Blocks and the lines that end them balance. A frame that needs a line to end it is an opener; a
line ends a block if it is a terminator, or if it continues a chain and carries the `end` of it.
Every opener is ended by one such line or left open, and every such line ends one opener or is
stray, whatever the document looks like.

## Proof shape

The invariant `Ledger` is a permutation: the chain heads of the open blocks, together with the chain
heads of the blocks that lines have ended, are the openers found so far, each of them once. A move
takes a chain head from one side to the other or adds the same opener on both (`Accounts`), and
leaves what earlier lines ended as it is (`Prolongs.closedHead?`). Counting, and that no opener is
ended twice, both are read off the permutation.
-/

namespace Polyloft

/-! ### Openers and the lines that end blocks -/

/-- A frame that needs a line to end it: not the module, no later branch of a chain, no clause of a
switch and no construct on one line. -/
def Frame.isOpener (f : Frame) : Bool :=
  f.kind != .module && f.head.isNone && !f.isImplicit && !f.inline

namespace ScopeTree

/-- The frames that need a line to end them. -/
def openers (tree : ScopeTree) : List Frame :=
  tree.frames.toList.filter Frame.isOpener

/-- Does the line continue a chain, so that a branch of it starts there? -/
def continuesChain (tree : ScopeTree) (line : Line) : Bool :=
  tree.frames.any fun f => f.head.isSome && f.start == line.index

/-- A line that continues a chain and carries an `end` behind its first word. -/
def isLastBranch (tree : ScopeTree) (line : Line) : Bool :=
  tree.continuesChain line && hasEnd (behindFirstWord line.codeTokens)

/-- A line that is to end a block. -/
def endsBlock (tree : ScopeTree) (line : Line) : Bool :=
  isTerminator line.codeTokens || tree.isLastBranch line

/-- Does the line end the block, or the last block of the chain, that the frame `id` opens? -/
def closes (tree : ScopeTree) (line : Line) (id : Nat) : Bool :=
  tree.endsBlock line &&
    (tree.frameAt? line.index).any fun f => f.stop == some line.index && f.chainHead == id

/-- The opener whose block or chain the line ends, if it is not stray. -/
def closedHead? (tree : ScopeTree) (line : Line) : Option Nat :=
  if tree.endsBlock line then
    ((tree.frameAt? line.index).filter fun f => f.kind != .module).map Frame.chainHead
  else none

end ScopeTree

/-! ### Reading arrays -/

/-- Two arrays whose elements are told apart nowhere by `g` give the same readings. -/
theorem filterMap_toList_congr {α β : Type} {g : α → Option β} {xs ys : Array α}
    (h : ∀ i : Nat, xs[i]?.map g = ys[i]?.map g) :
    xs.toList.filterMap g = ys.toList.filterMap g := by
  have hmap : xs.toList.map g = ys.toList.map g := by
    refine List.ext_getElem? fun i => ?_
    rw [List.getElem?_map, List.getElem?_map, Array.getElem?_toList, Array.getElem?_toList, h]
  have hread (zs : List α) : zs.filterMap g = (zs.map g).filterMap id := by
    rw [List.filterMap_map]
    rfl
  rw [hread, hread, hmap]

/-! ### Accounts of a state -/

/-- The number of the frame if it is an opener. -/
def Frame.openerId? (f : Frame) : Option Nat :=
  if f.isOpener then some f.id else none

/-- The numbers of the openers. -/
def openerIds (frames : Array Frame) : List Nat :=
  frames.toList.filterMap Frame.openerId?

/-- The head of the chain of an open frame that has an end of its own. -/
def headOf? (frames : Array Frame) (id : Nat) : Option Nat :=
  (frames[id]?.filter fun f => !f.isImplicit).map Frame.chainHead

namespace ScopeBuilder

/-- The chain heads of the open blocks, innermost first. -/
def openHeads (b : ScopeBuilder) : List Nat :=
  b.pending.filterMap (headOf? b.frames)

/-- The tree behind the lines read so far. -/
def soFar (b : ScopeBuilder) : ScopeTree :=
  { frames := b.frames
    childIds := b.childIds
    lineFrames := b.lineFrames
    stray := b.stray
    unclosed := [] }

variable {b b' b'' : ScopeBuilder} {tokens : List Token} {last n l : Nat}

theorem openerIds_pop (b : ScopeBuilder) (l : Nat) :
    openerIds (b.pop l).frames = openerIds b.frames := by
  refine filterMap_toList_congr fun i => ?_
  rw [show (b.pop l).frames = b.frames.modify b.top (Frame.closedAt · l) from rfl,
    Array.getElem?_modify]
  split
  · rw [Option.map_map]
    rfl
  · rfl

theorem openerIds_push (frames : Array Frame) (f : Frame) :
    openerIds (frames.push f) = openerIds frames ++ f.openerId?.toList := by
  rw [openerIds, Array.toList_push, List.filterMap_append]
  cases h : f.openerId? <;> simp [openerIds, h]

theorem headOf?_pop (b : ScopeBuilder) (l : Nat) :
    headOf? (b.pop l).frames = headOf? b.frames := by
  funext id
  rw [headOf?, headOf?, show (b.pop l).frames = b.frames.modify b.top (Frame.closedAt · l) from rfl,
    Array.getElem?_modify]
  split
  · rw [Option.filter_map, Option.map_map]
    rfl
  · rfl

theorem headOf?_push {frames : Array Frame} {f : Frame} {id : Nat} (h : id < frames.size) :
    headOf? (frames.push f) id = headOf? frames id := by
  rw [headOf?, headOf?, Array.getElem?_push, if_neg (Nat.ne_of_lt h)]

/-- Closing a frame takes its chain head away. -/
theorem openHeads_eq_pop (hopen : b.pending ≠ []) (l : Nat) :
    b.openHeads = (headOf? b.frames b.top).toList ++ (b.pop l).openHeads := by
  obtain ⟨x, xs, hp⟩ := List.exists_cons_of_ne_nil hopen
  have htop : b.top = x := by rw [top, hp]; rfl
  rw [openHeads, openHeads, headOf?_pop, show (b.pop l).pending = b.pending.tail from rfl, hp,
    List.tail_cons, htop]
  cases h : headOf? b.frames x <;> simp [h]

/-- What the moves rely on: open blocks have frames, and these are not the module's. -/
structure Grounded (b : ScopeBuilder) : Prop where
  root : ∃ f, b.frames[0]? = some f ∧ f.kind = .module
  isOpen : ∀ id ∈ b.pending, ∃ f, b.frames[id]? = some f ∧ f.kind ≠ .module

theorem Behind.grounded (h : Behind last n b) : Grounded b where
  root := ⟨_, h.coherent.root, rfl⟩
  isOpen := by
    intro id hid
    obtain ⟨f, hf, hpos⟩ := h.coherent.linked.exists_frame hid
    refine ⟨f, hf, fun hkind => h.coherent.construct_ne hf hpos ?_⟩
    cases hc : f.construct <;> rw [Frame.kind, hc] at hkind <;> first | rfl | cases hkind

namespace Grounded

theorem pop (h : Grounded b) (l : Nat) : Grounded (b.pop l) where
  root := by
    obtain ⟨f, hf, hkind⟩ := h.root
    refine ⟨_, frame_pop hf, ?_⟩
    split <;> exact hkind
  isOpen := by
    intro id hid
    obtain ⟨f, hf, hkind⟩ := h.isOpen id (List.mem_of_mem_tail hid)
    refine ⟨_, frame_pop hf, ?_⟩
    split <;> exact hkind

theorem push (h : Grounded b) {f : Frame} (hid : f.id = b.frames.size) (hkind : f.kind ≠ .module) :
    Grounded (b.push f) where
  root := by
    obtain ⟨g, hg, hmodule⟩ := h.root
    exact ⟨g, frame_push hg, hmodule⟩
  isOpen := by
    intro id hmem
    rcases List.mem_cons.1 hmem with rfl | hmem
    · exact ⟨f, by rw [hid]; exact Array.getElem?_push_size, hkind⟩
    · obtain ⟨g, hg, hne⟩ := h.isOpen id hmem
      exact ⟨g, frame_push hg, hne⟩

theorem lt_size (h : Grounded b) {id : Nat} (hid : id ∈ b.pending) : id < b.frames.size := by
  obtain ⟨f, hf, -⟩ := h.isOpen id hid
  exact ScopeBuilder.lt_size hf

/-- Opening a block adds its chain head, unless it is a clause. -/
theorem openHeads_push (h : Grounded b) {f : Frame} (hid : f.id = b.frames.size) :
    (b.push f).openHeads = (if f.isImplicit then [] else [f.chainHead]) ++ b.openHeads := by
  have hnew : headOf? (b.frames.push f) f.id = if f.isImplicit then none else some f.chainHead := by
    rw [headOf?, hid, Array.getElem?_push_size]
    cases himp : f.isImplicit <;> simp [himp]
  have hold : b.pending.filterMap (headOf? (b.frames.push f)) = b.openHeads :=
    List.filterMap_congr fun id hid => headOf?_push (h.lt_size hid)
  rw [openHeads, show (b.push f).frames = b.frames.push f from rfl,
    show (b.push f).pending = f.id :: b.pending from rfl, List.filterMap_cons, hnew, hold]
  cases f.isImplicit <;> rfl

/-- The innermost open block, told by its construct. -/
theorem headOf?_top (h : Grounded b) (hopen : b.pending ≠ []) :
    headOf? b.frames b.top =
      if b.topConstruct.isClause then none
      else some ((b.frames[b.top]?.map Frame.chainHead).getD b.top) := by
  obtain ⟨f, hf, -⟩ := h.isOpen b.top (Coherent.top_mem hopen)
  rw [headOf?, topConstruct, hf]
  show (Option.filter _ (some f)).map _ = if f.isImplicit then none else _
  cases himp : f.isImplicit <;> simp [himp]

end Grounded

/-! ### Moves keep the accounts -/

/-- From `b` to `b'` an opener is added or the blocks of `closed` are closed, and nothing else
happens to the accounts. -/
def Accounts (b b' : ScopeBuilder) (closed : List Nat) : Prop :=
  ∀ id, b'.openHeads.count id + closed.count id + (openerIds b.frames).count id =
    b.openHeads.count id + (openerIds b'.frames).count id

theorem Accounts.trans {closed closed' : List Nat} (h : Accounts b b' closed)
    (h' : Accounts b' b'' closed') : Accounts b b'' (closed ++ closed') := by
  intro id
  have := h id
  have := h' id
  rw [List.count_append]
  omega

theorem Accounts.congr {b₀ : ScopeBuilder} {closed : List Nat} (h : Accounts b₀ b' closed)
    (hheads : b₀.openHeads = b.openHeads) (hids : openerIds b₀.frames = openerIds b.frames) :
    Accounts b b' closed := by
  intro id
  have hid := h id
  rwa [hheads, hids] at hid

theorem Sheds.accounts (h : Sheds b b') (hb : Grounded b) :
    Grounded b' ∧ b'.openHeads = b.openHeads ∧ openerIds b'.frames = openerIds b.frames ∧
      b'.lineFrames = b.lineFrames ∧ b'.stray = b.stray := by
  induction h with
  | refl b => exact ⟨hb, rfl, rfl, rfl, rfl⟩
  | @clause b _ hopen hclause l _ ih =>
      obtain ⟨hgrounded, hheads, hids, hlines, hstray⟩ := ih (hb.pop l)
      refine ⟨hgrounded, hheads.trans ?_, hids.trans (openerIds_pop b l), hlines, hstray⟩
      rw [openHeads_eq_pop hopen l, hb.headOf?_top hopen, if_pos hclause]
      rfl

theorem isClause_of_continues {c d : Construct} (h : c.continues d = true) :
    d.isClause = false := by
  rw [Construct.continues] at h
  split at h <;> cases d <;> first | rfl | cases h

/-- Opening a block adds an opener on both sides, and opening a clause adds nothing. -/
theorem accounts_push (h : Grounded b) {f : Frame} (hid : f.id = b.frames.size)
    (hopener : f.openerId? = if f.isImplicit then none else some f.chainHead) :
    Accounts b (b.push f) [] := by
  intro id
  rw [h.openHeads_push hid, show (b.push f).frames = b.frames.push f from rfl, openerIds_push,
    hopener, List.count_append, List.count_append]
  cases f.isImplicit
  · show [f.chainHead].count id + _ + 0 + _ = _ + (_ + [f.chainHead].count id)
    omega
  · show 0 + _ + 0 + _ = _ + (_ + 0)
    omega

/-- Closing the innermost block takes its chain head away. -/
theorem accounts_pop (h : Grounded b) (hopen : b.pending ≠ [])
    (hclause : b.topConstruct.isClause = false) (l : Nat) :
    Accounts b (b.pop l) [(b.frames[b.top]?.map Frame.chainHead).getD b.top] := by
  intro id
  rw [openerIds_pop, openHeads_eq_pop hopen l, h.headOf?_top hopen, hclause, List.count_append]
  show _ + [_].count id + _ = [_].count id + _ + _
  omega

/-- The next branch of a chain has the head of the branch before it. -/
theorem accounts_nextBranch (h : Grounded b) (hopen : b.pending ≠ []) {c : Construct}
    (hc : c.isBranch = true) (hcontinues : c.continues b.topConstruct = true) (n : Nat) :
    Accounts b ((b.pop (n - 1)).push (b.nextBranch c n)) [] := by
  intro id
  have hpop := accounts_pop h hopen (isClause_of_continues hcontinues) (n - 1) id
  have himplicit : (b.nextBranch c n).isImplicit = false := isClause_of_isBranch hc
  have hopener : (b.nextBranch c n).openerId? = none := by
    rw [Frame.openerId?, Frame.isOpener, nextBranch, newFrame]
    simp
  rw [(h.pop (n - 1)).openHeads_push (f := b.nextBranch c n) rfl, himplicit,
    show ((b.pop (n - 1)).push (b.nextBranch c n)).frames =
      (b.pop (n - 1)).frames.push (b.nextBranch c n) from rfl, openerIds_push, hopener,
    List.count_append, List.count_append]
  show [_].count id + _ + 0 + _ = _ + (_ + 0)
  rw [show (b.nextBranch c n).chainHead =
    (b.frames[b.top]?.map Frame.chainHead).getD b.top from rfl]
  omega

/-! ### What a line adds to the books -/

/-- What holds of the line that was read last, between the states before and behind it. -/
structure Entry (line : Line) (b b' : ScopeBuilder) : Prop where
  lineFrames : ∃ k, b'.lineFrames = b.lineFrames.push k
  accounts : Accounts b b' (b'.soFar.closedHead? line).toList
  stray : b'.stray = b.stray ++
    if b'.soFar.endsBlock line && (b'.soFar.closedHead? line).isNone then [line.index] else []
  stop : ∀ f, b'.soFar.endsBlock line = true → b'.soFar.frameAt? line.index = some f →
    f.kind ≠ .module → f.stop = some line.index
  branch : b'.soFar.continuesChain line = true → isTerminator line.codeTokens = false

namespace Entry

variable {line : Line}

theorem of_not_endsBlock (hends : b'.soFar.endsBlock line = false)
    (hlines : ∃ k, b'.lineFrames = b.lineFrames.push k) (haccounts : Accounts b b' [])
    (hstray : b'.stray = b.stray) : Entry line b b' where
  lineFrames := hlines
  accounts := by
    rw [ScopeTree.closedHead?, hends]
    exact haccounts
  stray := by
    rw [hends, hstray]
    exact (List.append_nil _).symm
  stop := by
    intro f htrue
    rw [hends] at htrue
    cases htrue
  branch := fun _ => (Bool.or_eq_false_iff.1 hends).1

theorem of_closes {k : Nat} {f : Frame} (hsize : b.lineFrames.size = line.index)
    (hends : b'.soFar.endsBlock line = true) (hlines : b'.lineFrames = b.lineFrames.push k)
    (hf : b'.frames[k]? = some f) (hkind : f.kind ≠ .module) (hstop : f.stop = some line.index)
    (haccounts : Accounts b b' [f.chainHead]) (hstray : b'.stray = b.stray)
    (hbranch : b'.soFar.continuesChain line = true → isTerminator line.codeTokens = false) :
    Entry line b b' := by
  have hat : b'.soFar.frameAt? line.index = some f := by
    rw [ScopeTree.frameAt?, if_neg (by omega), Int.toNat_natCast,
      show b'.soFar.lineFrames = b.lineFrames.push k from hlines, ← hsize,
      Array.getElem?_push_size]
    exact hf
  have hhead : b'.soFar.closedHead? line = some f.chainHead := by
    rw [ScopeTree.closedHead?, hends, if_pos rfl, hat, Option.filter_some,
      if_pos (by simpa using hkind)]
    rfl
  refine ⟨⟨k, hlines⟩, ?_, ?_, ?_, hbranch⟩
  · rw [hhead]
    exact haccounts
  · rw [hhead, hstray]
    simp
  · intro g _ hg _
    rw [hat, Option.some.injEq] at hg
    rwa [← hg]

/-- Clauses that are closed first are on neither side of the books. -/
theorem of_sheds {b₀ : ScopeBuilder} (hsheds : Sheds b b₀) (hb : Grounded b)
    (h : Entry line b₀ b') : Entry line b b' := by
  obtain ⟨-, hheads, hids, hlines, hstray⟩ := hsheds.accounts hb
  exact
    { lineFrames := hlines ▸ h.lineFrames
      accounts := h.accounts.congr hheads hids
      stray := hstray ▸ h.stray
      stop := h.stop
      branch := h.branch }

end Entry

/-- No branch of a chain starts on line `n`. -/
def Unbranched (n : Nat) (b : ScopeBuilder) : Prop :=
  ∀ (i : Nat) (f : Frame), b.frames[i]? = some f → f.head.isSome = true → f.start ≠ n

namespace Unbranched

variable {line : Line}

theorem pop (h : Unbranched n b) (l : Nat) : Unbranched n (b.pop l) := by
  intro i f hf
  obtain ⟨g, hg, ⟨e, rfl⟩, -⟩ := of_frame_pop hf
  exact h i g hg

theorem push (h : Unbranched n b) {f : Frame} (hf : f.head = none) : Unbranched n (b.push f) := by
  intro i g hg hhead
  rcases of_frame_push hg with ⟨-, rfl⟩ | hold
  · simp [hf] at hhead
  · exact h i g hold hhead

theorem sheds (h : Unbranched n b) (hsheds : Sheds b b') : Unbranched n b' := by
  induction hsheds with
  | refl => exact h
  | clause _ _ l _ ih => exact ih (h.pop l)

theorem continuesChain_eq_false (h : Unbranched line.index b) :
    b.soFar.continuesChain line = false := by
  refine Array.any_eq_false.2 fun i hi => ?_
  intro hcond
  rw [Bool.and_eq_true, beq_iff_eq] at hcond
  exact h i _ (Array.getElem?_eq_getElem hi) hcond.1 hcond.2

theorem endsBlock_eq_isTerminator (h : Unbranched line.index b) :
    b.soFar.endsBlock line = isTerminator line.codeTokens := by
  rw [ScopeTree.endsBlock, ScopeTree.isLastBranch, h.continuesChain_eq_false, Bool.false_and,
    Bool.or_false]

end Unbranched

theorem Behind.unbranched (h : Behind last n b) : Unbranched n b := by
  intro i f hf hhead
  have hpos : 0 < i := by
    refine Nat.pos_of_ne_zero fun hzero => ?_
    rw [hzero, h.coherent.root, Option.some.injEq] at hf
    rw [← hf] at hhead
    cases hhead
  exact Nat.ne_of_lt (h.coherent.start_lt hf hpos)

theorem kind_ne_module_of_ne {c : Construct} (h : c ≠ .module) : c.kind ≠ .module := by
  cases c <;> first | exact absurd rfl h | decide

theorem kind_of_isBranch {c : Construct} (h : c.isBranch = true) : c.kind = .conditional := by
  cases c <;> first | rfl | cases h

section

variable {line : Line} (hn : line.index = n) (hb : Grounded b)
include hn hb

theorem entry_of_enter (hfree : Unbranched n b) {o : Opening}
    (hend : isTerminator line.codeTokens = false) (ho : o.construct ≠ .module) :
    Entry line b ((b.assign b.top).push (b.newFrame o n none)) := by
  subst hn
  have hfree' : Unbranched line.index ((b.assign b.top).push (b.newFrame o line.index none)) :=
    hfree.push rfl
  refine .of_not_endsBlock (hfree'.endsBlock_eq_isTerminator.trans hend) ⟨b.top, rfl⟩ ?_ rfl
  refine accounts_push hb (f := b.newFrame o line.index none) rfl ?_
  have hkind : (b.newFrame o line.index none).kind ≠ .module := kind_ne_module_of_ne ho
  rw [Frame.openerId?, Frame.isOpener, bne_iff_ne.2 hkind]
  cases (b.newFrame o line.index none).isImplicit <;> rfl

theorem entry_of_inline (hfree : Unbranched n b) {o : Opening}
    (hend : isTerminator line.codeTokens = false) :
    Entry line b ((b.addInline (b.newFrame o n none)).assign b.frames.size) := by
  subst hn
  have hfree' : Unbranched line.index
      ((b.addInline (b.newFrame o line.index none)).assign b.frames.size) := hfree.push rfl
  refine .of_not_endsBlock (hfree'.endsBlock_eq_isTerminator.trans hend) ⟨_, rfl⟩ ?_ rfl
  intro id
  have hheads : ((b.addInline (b.newFrame o line.index none)).assign b.frames.size).openHeads =
      b.openHeads := List.filterMap_congr fun id hid => headOf?_push (hb.lt_size hid)
  have hids : openerIds ((b.addInline (b.newFrame o line.index none)).assign b.frames.size).frames
      = openerIds b.frames := by
    refine (openerIds_push _ _).trans ?_
    rw [Frame.openerId?, Frame.isOpener, Bool.not_true, Bool.and_false]
    exact List.append_nil _
  rw [hheads, hids, List.count_nil]
  rfl

omit hn in
theorem entry_of_branch {c : Construct} (hend : isTerminator line.codeTokens = false)
    (hopen : b.pending ≠ []) (hc : c.isBranch = true)
    (hcontinues : c.continues b.topConstruct = true)
    (hno : hasEnd (behindFirstWord line.codeTokens) = false) :
    Entry line b (((b.pop (n - 1)).assign (b.pop (n - 1)).top).push (b.nextBranch c n)) := by
  refine .of_not_endsBlock ?_ ⟨_, rfl⟩ (accounts_nextBranch hb hopen hc hcontinues n) rfl
  rw [ScopeTree.endsBlock, ScopeTree.isLastBranch, hend, hno, Bool.and_false]
  rfl

theorem entry_of_lastBranch (hsize : b.lineFrames.size = n) {c : Construct}
    (hend : isTerminator line.codeTokens = false) (hopen : b.pending ≠ [])
    (hc : c.isBranch = true) (hcontinues : c.continues b.topConstruct = true)
    (hends : hasEnd (behindFirstWord line.codeTokens) = true) :
    Entry line b
      ((((b.pop (n - 1)).push (b.nextBranch c n)).pop n).assign b.frames.size) := by
  subst hn
  have hkind : (b.nextBranch c line.index).kind ≠ .module := by
    rw [show (b.nextBranch c line.index).kind = c.kind from rfl, kind_of_isBranch hc]
    decide
  have hpushed : Grounded ((b.pop (line.index - 1)).push (b.nextBranch c line.index)) :=
    (hb.pop _).push rfl hkind
  have htop : ((b.pop (line.index - 1)).push (b.nextBranch c line.index)).top = b.frames.size :=
    size_frames_pop b (line.index - 1)
  have hnew : ((b.pop (line.index - 1)).push (b.nextBranch c line.index)).frames[b.frames.size]? =
      some (b.nextBranch c line.index) := by
    rw [← size_frames_pop b (line.index - 1)]
    exact Array.getElem?_push_size
  have hclosed := frame_pop (l := line.index) hnew
  rw [if_pos htop] at hclosed
  refine .of_closes (f := (b.nextBranch c line.index).closedAt line.index) hsize ?_ rfl hclosed
    hkind rfl ?_ rfl fun _ => hend
  · -- The branch starts on the line, and the line carries the end.
    rw [ScopeTree.endsBlock, ScopeTree.isLastBranch, hends, hend, Bool.and_true, Bool.false_or]
    obtain ⟨hlt, hget⟩ := Array.getElem?_eq_some_iff.1 hclosed
    refine Array.any_eq_true.2 ⟨_, hlt, ?_⟩
    simp only [soFar, assign, hget]
    exact beq_self_eq_true line.index
  · have hconstruct :
        ((b.pop (line.index - 1)).push (b.nextBranch c line.index)).topConstruct = c := by
      rw [topConstruct, htop, hnew]
      rfl
    have hpop := accounts_pop hpushed (List.cons_ne_nil _ _)
      (by rw [hconstruct]; exact isClause_of_isBranch hc) line.index
    rw [htop, hnew] at hpop
    exact (accounts_nextBranch hb hopen hc hcontinues line.index).trans hpop

theorem entry_of_leave (hsize : b.lineFrames.size = n) (hfree : Unbranched n b)
    (hend : isTerminator line.codeTokens = true) (hopen : b.pending ≠ [])
    (hclause : b.topConstruct.isClause = false) : Entry line b ((b.pop n).assign b.top) := by
  subst hn
  obtain ⟨f, hf, hkind⟩ := hb.isOpen b.top (Coherent.top_mem hopen)
  have hfree' : Unbranched line.index ((b.pop line.index).assign b.top) := hfree.pop line.index
  have hclosed := frame_pop (l := line.index) hf
  rw [if_pos rfl] at hclosed
  refine .of_closes hsize (hfree'.endsBlock_eq_isTerminator.trans hend) rfl hclosed hkind rfl ?_ rfl
    fun hbranch => ?_
  · have hpop := accounts_pop hb hopen hclause line.index
    rw [hf] at hpop
    exact hpop
  · rw [hfree'.continuesChain_eq_false] at hbranch
    cases hbranch

theorem entry_of_stray (hsize : b.lineFrames.size = n) (hfree : Unbranched n b)
    (hend : isTerminator line.codeTokens = true) :
    Entry line b { b.assign 0 with stray := b.stray ++ [n] } := by
  subst hn
  obtain ⟨f, hf, hkind⟩ := hb.root
  have hfree' : Unbranched line.index { b.assign 0 with stray := b.stray ++ [line.index] } := hfree
  have hends := hfree'.endsBlock_eq_isTerminator.trans hend
  have hat : (soFar { b.assign 0 with stray := b.stray ++ [line.index] }).frameAt? line.index =
      some f := by
    rw [ScopeTree.frameAt?, if_neg (by omega), Int.toNat_natCast, ← hsize]
    show (b.lineFrames.push 0)[b.lineFrames.size]?.bind _ = _
    rw [Array.getElem?_push_size]
    exact hf
  have hnone : (soFar { b.assign 0 with stray := b.stray ++ [line.index] }).closedHead? line =
      none := by
    rw [ScopeTree.closedHead?, hends, if_pos rfl, hat]
    simp [hkind]
  refine ⟨⟨0, rfl⟩, ?_, ?_, ?_, ?_⟩
  · rw [hnone]
    exact fun id => by rw [Option.toList_none, List.count_nil]; rfl
  · rw [hends, hnone]
    rfl
  · intro g _ hg hne
    rw [hat, Option.some.injEq] at hg
    exact absurd hkind (hg ▸ hne)
  · intro hbranch
    rw [hfree'.continuesChain_eq_false] at hbranch
    cases hbranch

end

/-- What a line adds to the books. -/
theorem entry_stepAt (h : Behind last n b) {line : Line} (hn : line.index = n) :
    Entry line b (b.stepAt line.codeTokens n) := by
  obtain ⟨b₀, hsheds, hmove⟩ := exists_move h line.codeTokens
  obtain ⟨hb, -, -, hlines, -⟩ := hsheds.accounts h.grounded
  have hsize : b₀.lineFrames.size = n := by rw [hlines, h.size_eq]
  have hfree : Unbranched n b₀ := h.unbranched.sheds hsheds
  refine .of_sheds hsheds h.grounded ?_
  generalize b.stepAt line.codeTokens n = b' at hmove
  cases hmove with
  | stay hend =>
      have hfree' : Unbranched line.index (b₀.assign b₀.top) := hn ▸ hfree
      exact .of_not_endsBlock (hfree'.endsBlock_eq_isTerminator.trans hend) ⟨_, rfl⟩
        (fun _ => by rw [List.count_nil]; rfl) rfl
  | enter hend ho => exact entry_of_enter hn hb hfree hend ho
  | inline hend => exact entry_of_inline hn hb hfree hend
  | branch hend hopen hc hcontinues hno => exact entry_of_branch hb hend hopen hc hcontinues hno
  | lastBranch hend hopen hc hcontinues hends =>
      exact entry_of_lastBranch hn hb hsize hend hopen hc hcontinues hends
  | leave hend hopen hclause => exact entry_of_leave hn hb hsize hfree hend hopen hclause
  | stray hend => exact entry_of_stray hn hb hsize hfree hend

end ScopeBuilder

/-! ### Further lines -/

/-- The tree `t'` tells of more lines than `t`: its further frames start on line `n`, and what `t`
says of earlier lines is left as it is, but for the last lines of frames. -/
structure ScopeTree.Prolongs (n : Nat) (t t' : ScopeTree) : Prop where
  frame : ∀ {i : Nat} {f : Frame}, t.frames[i]? = some f →
    ∃ e, t'.frames[i]? = some { f with stop := e }
  fresh : ∀ {i : Nat} {f : Frame}, t'.frames[i]? = some f →
    (∃ g, t.frames[i]? = some g) ∨ f.start = n
  line : ∀ {l : Nat}, l < n → t'.lineFrames[l]? = t.lineFrames[l]?

namespace ScopeTree.Prolongs

variable {n : Nat} {t t' : ScopeTree} {line : Line}

theorem continuesChain (h : Prolongs n t t') (hline : line.index < n) :
    t'.continuesChain line = t.continuesChain line := by
  rw [Bool.eq_iff_iff, ScopeTree.continuesChain, ScopeTree.continuesChain, Array.any_eq_true',
    Array.any_eq_true']
  constructor
  · rintro ⟨f', hf', hcond⟩
    obtain ⟨i, hi⟩ := Array.mem_iff_getElem?.1 hf'
    rw [Bool.and_eq_true, beq_iff_eq] at hcond
    rcases h.fresh hi with ⟨f, hf⟩ | hstart
    · obtain ⟨e, he⟩ := h.frame hf
      rw [hi, Option.some.injEq] at he
      subst he
      exact ⟨f, Array.mem_of_getElem? hf, by rw [Bool.and_eq_true, beq_iff_eq]; exact hcond⟩
    · omega
  · rintro ⟨f, hf, hcond⟩
    obtain ⟨i, hi⟩ := Array.mem_iff_getElem?.1 hf
    obtain ⟨e, he⟩ := h.frame hi
    exact ⟨_, Array.mem_of_getElem? he, hcond⟩

theorem endsBlock (h : Prolongs n t t') (hline : line.index < n) :
    t'.endsBlock line = t.endsBlock line := by
  rw [ScopeTree.endsBlock, ScopeTree.endsBlock, ScopeTree.isLastBranch, ScopeTree.isLastBranch,
    h.continuesChain hline]

theorem frameAt? (h : Prolongs n t t') {l : Nat} (hl : l < n) {f : Frame}
    (hf : t.frameAt? l = some f) : ∃ e, t'.frameAt? l = some { f with stop := e } := by
  rw [ScopeTree.frameAt?, if_neg (by omega), Int.toNat_natCast] at hf ⊢
  obtain ⟨k, hk, hframe⟩ := Option.bind_eq_some_iff.1 hf
  rw [h.line hl, hk]
  exact h.frame hframe

theorem closedHead? (h : Prolongs n t t') (hline : line.index < n)
    (hf : ∃ f, t.frameAt? line.index = some f) : t'.closedHead? line = t.closedHead? line := by
  obtain ⟨f, hf⟩ := hf
  obtain ⟨e, he⟩ := h.frameAt? hline hf
  rw [ScopeTree.closedHead?, ScopeTree.closedHead?, h.endsBlock hline, hf, he, Option.filter_some,
    Option.filter_some, show ({ f with stop := e } : Frame).kind = f.kind from rfl]
  split
  · split <;> rfl
  · rfl

end ScopeTree.Prolongs

/-! ### The books of a run -/

namespace ScopeBuilder

variable {b b' : ScopeBuilder} {last n : Nat} {done : List Line}

/-- What the lines read so far have done to the blocks. -/
structure Ledger (done : List Line) (b : ScopeBuilder) : Prop where
  /-- The blocks that are open and those that a line has ended are the openers, each once. -/
  perm : (b.openHeads ++ done.filterMap b.soFar.closedHead?).Perm (openerIds b.frames)
  stray_eq : b.stray =
    (done.filter fun l => b.soFar.endsBlock l && (b.soFar.closedHead? l).isNone).map Line.index
  stop_eq : ∀ line ∈ done, ∀ f, b.soFar.endsBlock line = true →
    b.soFar.frameAt? line.index = some f → f.kind ≠ .module → f.stop = some line.index
  branch : ∀ line ∈ done, b.soFar.continuesChain line = true →
    isTerminator line.codeTokens = false

theorem ledger_init (count : Nat) : Ledger [] (init count) where
  perm := .refl []
  stray_eq := rfl
  stop_eq := by simp
  branch := by simp

theorem Behind.exists_frameAt? (h : Behind last n b) {l : Nat} (hl : l < n) :
    ∃ k f, b.lineFrames[l]? = some k ∧ b.frames[k]? = some f ∧ b.soFar.frameAt? l = some f := by
  obtain ⟨k, hk⟩ : ∃ k, b.lineFrames[l]? = some k :=
    ⟨_, Array.getElem?_eq_getElem (by rw [h.size_eq]; exact hl)⟩
  obtain ⟨f, hf, -⟩ := h.coherent.lines hk
  refine ⟨k, f, hk, hf, ?_⟩
  rw [ScopeTree.frameAt?, if_neg (by omega), Int.toNat_natCast, soFar, hk]
  exact hf

/-- A frame with a last line is not open. -/
theorem Behind.notMem_pending (h : Behind last n b) {i e : Nat} {f : Frame}
    (hf : b.frames[i]? = some f) (hstop : f.stop = some e) : i ∉ b.pending := by
  intro hi
  obtain ⟨-, -, hpos⟩ := h.coherent.linked.exists_frame hi
  rw [(h.coherent.isOpen hf hpos).2 hi] at hstop
  cases hstop

theorem Keeps.prolongs (h : Keeps n b b') (hb : b.lineFrames.size = n)
    (hlines : ∃ k, b'.lineFrames = b.lineFrames.push k) : b.soFar.Prolongs n b'.soFar where
  frame := fun hf =>
    let ⟨e, he, _⟩ := h.frame hf
    ⟨e, he⟩
  fresh := h.fresh
  line := by
    obtain ⟨k, hk⟩ := hlines
    intro l hl
    rw [show b'.soFar.lineFrames = b.lineFrames.push k from hk, Array.getElem?_push,
      if_neg (by omega)]
    rfl

/-- One more line. -/
theorem Ledger.stepAt (h : Ledger done b) (hb : Behind last n b)
    (hdone : ∀ line ∈ done, line.index < n) {line : Line} (hn : line.index = n) :
    Ledger (done ++ [line]) (b.stepAt line.codeTokens n) := by
  have hentry := entry_stepAt hb hn
  have hkeeps := keeps_stepAt hb line.codeTokens
  generalize b.stepAt line.codeTokens n = b' at hentry hkeeps
  have hprolongs := hkeeps.prolongs hb.size_eq hentry.lineFrames
  have hclosed (l : Line) (hl : l ∈ done) : b'.soFar.closedHead? l = b.soFar.closedHead? l := by
    obtain ⟨-, f, -, -, hf⟩ := hb.exists_frameAt? (hdone l hl)
    exact hprolongs.closedHead? (hdone l hl) ⟨f, hf⟩
  constructor
  case perm =>
    refine List.perm_iff_count.2 fun id => ?_
    have hcount := hentry.accounts id
    have hold := List.perm_iff_count.1 h.perm id
    rw [List.filterMap_append, List.filterMap_congr hclosed, List.count_append, List.count_append]
    rw [List.count_append] at hold
    rw [show [line].filterMap b'.soFar.closedHead? = (b'.soFar.closedHead? line).toList by
      cases hc : b'.soFar.closedHead? line <;> simp [hc]]
    omega
  case stray_eq =>
    rw [hentry.stray, h.stray_eq, List.filter_append, List.map_append]
    congr 1
    · refine congrArg (List.map _) (List.filter_congr fun l hl => ?_)
      rw [hclosed l hl, hprolongs.endsBlock (hdone l hl)]
    · rw [List.filter_singleton]
      cases b'.soFar.endsBlock line && (b'.soFar.closedHead? line).isNone <;> rfl
  case stop_eq =>
    intro l hl f hends hf hkind
    rcases List.mem_append.1 hl with hl | hl
    · rw [hprolongs.endsBlock (hdone l hl)] at hends
      obtain ⟨k, g, hk, hg, hat⟩ := hb.exists_frameAt? (hdone l hl)
      obtain ⟨e, he⟩ := hprolongs.frameAt? (hdone l hl) hat
      rw [hf, Option.some.injEq] at he
      subst he
      have hstop := h.stop_eq l hl g hends hat hkind
      -- The frame is closed, so that the line does not change it.
      obtain ⟨e', he', hsame⟩ := hkeeps.frame hg
      have hframe : b'.soFar.frameAt? l.index = b'.frames[k]? := by
        rw [ScopeTree.frameAt?, if_neg (by omega), Int.toNat_natCast,
          hprolongs.line (hdone l hl), show b.soFar.lineFrames = b.lineFrames from rfl, hk]
        rfl
      rw [hframe, he', Option.some.injEq] at hf
      rw [← hf]
      exact (hsame (hb.notMem_pending hg hstop)).trans hstop
    · rw [List.mem_singleton] at hl
      subst hl
      exact hentry.stop f hends hf hkind
  case branch =>
    intro l hl hcontinues
    rcases List.mem_append.1 hl with hl | hl
    · rw [hprolongs.continuesChain (hdone l hl)] at hcontinues
      exact h.branch l hl hcontinues
    · rw [List.mem_singleton] at hl
      subst hl
      exact hentry.branch hcontinues

/-- Any number of lines. -/
theorem Ledger.run (h : Ledger done b) (hb : Behind last n b)
    (hdone : ∀ line ∈ done, line.index < n) {rest : List Line}
    (hrest : rest.map Line.index = List.range' n rest.length) :
    Ledger (done ++ rest) (b.run n (rest.map Line.codeTokens)) := by
  induction rest generalizing done n b with
  | nil => rwa [List.append_nil]
  | cons line rest ih =>
      rw [List.map_cons, List.length_cons, List.range'_succ] at hrest
      obtain ⟨hline, hrest⟩ := List.cons.inj hrest
      rw [List.append_cons, List.map_cons, run_cons]
      refine ih (h.stepAt hb hdone hline) (hb.stepAt _) ?_ hrest
      intro l hl
      rcases List.mem_append.1 hl with hl | hl
      · exact Nat.lt_succ_of_lt (hdone l hl)
      · rw [List.mem_singleton] at hl
        subst hl
        omega

end ScopeBuilder

/-- The books behind the last line of a document. -/
theorem Document.ledger_scopeState {doc : Document} (hdoc : doc.IsNumbered) :
    ScopeBuilder.Ledger doc.lines doc.scopeState := by
  rw [Document.IsNumbered, List.range_eq_range'] at hdoc
  have hbehind : ScopeBuilder.Behind (doc.size - 1) 0 (ScopeBuilder.init doc.size) :=
    ⟨ScopeBuilder.Coherent.start doc.size, rfl⟩
  have h := (ScopeBuilder.ledger_init doc.size).run hbehind (by simp) hdoc
  rwa [List.nil_append] at h

end Polyloft
