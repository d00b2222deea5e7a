import Polyloft.Proofs.Scope.Builder
import Polyloft.Proofs.Scope.Children

/-!
# Polyloft.Proofs.Scope.Coherent

The invariant of the pass that builds a scope tree, whatever the lines are.

## Proof shape

The pass changes its state in four ways only: it closes the innermost open frame, it opens a frame,
it adds a frame that is already closed, and it gives a line its frame. `Coherent` is kept by each of
the four, and a line is a short sequence of them (`Coherent.stepAt`). A line number `m` bounds what
the state may mention; closing a frame on line `l` is done under the bound `l + 1`, so that one
lemma serves both a frame that ends on the current line and one that ends on the line before.
-/

namespace Polyloft

/-- The frame of the whole document. -/
def moduleFrame (last : Nat) : Frame :=
  ⟨0, .module, none, 0, some last, none, none, false⟩

namespace ScopeBuilder

/-- The frames at the head of the given open frames are each other's parents, and the outermost of
them lies in the module. -/
def Linked (frames : Array Frame) : List Nat → Prop
  | [] => True
  | id :: ids =>
      (∃ f, frames[id]? = some f ∧ 0 < id ∧ f.parent = some (ids.headD 0)) ∧ Linked frames ids

/-- What holds of the state behind some lines: `last` is the last line of the document, and no
frame starts or ends on line `m` or below it. -/
structure Coherent (last m : Nat) (b : ScopeBuilder) : Prop where
  root : b.frames[0]? = some (moduleFrame last)
  childIds_eq : b.childIds = childLists b.frames.toList
  id_eq : ∀ {i : Nat} {f : Frame}, b.frames[i]? = some f → f.id = i
  construct_ne : ∀ {i : Nat} {f : Frame}, b.frames[i]? = some f → 0 < i → f.construct ≠ .module
  parent_lt : ∀ {i : Nat} {f : Frame}, b.frames[i]? = some f → 0 < i →
    ∃ p, f.parent = some p ∧ p < i
  start_lt : ∀ {i : Nat} {f : Frame}, b.frames[i]? = some f → 0 < i → f.start < m
  starts : ∀ {i j : Nat} {f g : Frame}, b.frames[i]? = some f → b.frames[j]? = some g → 0 < i →
    i < j → f.start < g.start
  isOpen : ∀ {i : Nat} {f : Frame}, b.frames[i]? = some f → 0 < i → (f.stop = none ↔ i ∈ b.pending)
  stop_lt : ∀ {i e : Nat} {f : Frame}, b.frames[i]? = some f → 0 < i → f.stop = some e →
    f.start ≤ e ∧ e < m
  /-- What lies in a closed frame is closed, and ends in it. -/
  nested : ∀ {i p e : Nat} {f g : Frame}, b.frames[i]? = some f → f.parent = some p → 0 < p →
    b.frames[p]? = some g → g.stop = some e → ∃ e', f.stop = some e' ∧ e' ≤ e
  /-- A frame ends before the next one with the same parent starts. -/
  siblings : ∀ {i j : Nat} {f g : Frame}, b.frames[i]? = some f → b.frames[j]? = some g → 0 < i →
    i < j → f.parent = g.parent → ∃ e, f.stop = some e ∧ e < g.start
  linked : Linked b.frames b.pending
  /-- The head of a chain has the parent of its branches and is itself no branch. -/
  heads : ∀ {i h : Nat} {f : Frame}, b.frames[i]? = some f → f.head = some h →
    ∃ g, b.frames[h]? = some g ∧ 0 < h ∧ g.parent = f.parent ∧ g.head = none
  lines : ∀ {l k : Nat}, b.lineFrames[l]? = some k →
    ∃ f, b.frames[k]? = some f ∧ f.start ≤ l ∧ ∀ e, 0 < k → f.stop = some e → l ≤ e

variable {last m l : Nat} {b : ScopeBuilder}

/-! ### Open frames -/

theorem Linked.exists_frame {frames : Array Frame} {ids : List Nat} (h : Linked frames ids)
    {id : Nat} (hid : id ∈ ids) : ∃ f, frames[id]? = some f ∧ 0 < id := by
  induction ids with
  | nil => cases hid
  | cons x xs ih =>
      obtain ⟨⟨f, hf, hx, -⟩, htail⟩ := h
      rcases List.mem_cons.1 hid with rfl | hmem
      · exact ⟨f, hf, hx⟩
      · exact ih htail hmem

theorem Linked.tail {frames : Array Frame} {ids : List Nat} (h : Linked frames ids) :
    Linked frames ids.tail := by
  cases ids with
  | nil => exact h
  | cons x xs => exact h.2

/-- The links do not depend on where frames stop, nor on further frames. -/
theorem Linked.congr {frames frames' : Array Frame} {ids : List Nat} (h : Linked frames ids)
    (hparent : ∀ (i : Nat) (f : Frame), frames[i]? = some f →
      ∃ f' : Frame, frames'[i]? = some f' ∧ f'.parent = f.parent) :
    Linked frames' ids := by
  induction ids with
  | nil => exact True.intro
  | cons x xs ih =>
      obtain ⟨⟨f, hf, hx, hp⟩, htail⟩ := h
      obtain ⟨f', hf', hp'⟩ := hparent x f hf
      exact ⟨⟨f', hf', hx, hp'.trans hp⟩, ih htail⟩

namespace Coherent

/-- A frame comes after its parent; the module has none. -/
theorem lt_of_parent (h : Coherent last m b) {i p : Nat} {f : Frame} (hf : b.frames[i]? = some f)
    (hp : f.parent = some p) : p < i := by
  rcases Nat.eq_zero_or_pos i with rfl | hi
  · rw [h.root, Option.some.injEq] at hf
    subst hf
    cases hp
  · obtain ⟨q, hq, hlt⟩ := h.parent_lt hf hi
    rw [hp, Option.some.injEq] at hq
    omega

/-- A link leads to an earlier frame, so open frames are numbered from the inside out. -/
theorem mem_le_headD (h : Coherent last m b) {ids : List Nat} (hl : Linked b.frames ids) {id : Nat}
    (hid : id ∈ ids) : id ≤ ids.headD 0 := by
  induction ids generalizing id with
  | nil => cases hid
  | cons x xs ih =>
      obtain ⟨⟨f, hf, hx, hp⟩, htail⟩ := hl
      rcases List.mem_cons.1 hid with rfl | hmem
      · exact Nat.le_refl _
      · have hle := ih htail hmem
        have hlt := h.lt_of_parent hf hp
        show id ≤ x
        omega

theorem mem_le_top (h : Coherent last m b) {id : Nat} (hid : id ∈ b.pending) : id ≤ b.top :=
  h.mem_le_headD h.linked hid

/-- The innermost open frame. -/
theorem top_frame (h : Coherent last m b) : ∃ f, b.frames[b.top]? = some f ∧
    (0 < b.top → f.stop = none ∧ f.start < m) ∧ (b.top = 0 → f.start = 0) := by
  cases hp : b.pending with
  | nil =>
      have htop : b.top = 0 := by rw [top, hp]; rfl
      exact ⟨moduleFrame last, htop ▸ h.root, by omega, fun _ => rfl⟩
  | cons x xs =>
      have htop : b.top = x := by rw [top, hp]; rfl
      have hx : x ∈ b.pending := by rw [hp]; exact List.mem_cons_self
      obtain ⟨f, hf, hpos⟩ := h.linked.exists_frame hx
      rw [htop]
      exact ⟨f, hf, fun _ => ⟨(h.isOpen hf hpos).2 hx, h.start_lt hf hpos⟩, by omega⟩

theorem top_lt_size (h : Coherent last m b) : b.top < b.frames.size := by
  obtain ⟨f, hf, -⟩ := h.top_frame
  exact (Array.getElem?_eq_some_iff.1 hf).1

/-- Every frame inside the innermost open one is closed. -/
theorem stop_ne_none_of_parent_top (h : Coherent last m b) {i : Nat} {f : Frame}
    (hf : b.frames[i]? = some f) (hp : f.parent = some b.top) : f.stop ≠ none := by
  intro hstop
  have hlt := h.lt_of_parent hf hp
  have hle := h.mem_le_top ((h.isOpen hf (by omega)).1 hstop)
  omega

theorem top_mem (hne : b.pending ≠ []) : b.top ∈ b.pending := by
  obtain ⟨x, xs, hp⟩ := List.exists_cons_of_ne_nil hne
  simp [top, hp]

theorem top_pos (h : Coherent last m b) (hne : b.pending ≠ []) : 0 < b.top := by
  obtain ⟨f, -, hpos⟩ := h.linked.exists_frame (top_mem hne)
  exact hpos

/-- The innermost open frame is open once. -/
theorem top_notMem_tail (h : Coherent last m b) (hne : b.pending ≠ []) :
    b.top ∉ b.pending.tail := by
  obtain ⟨x, xs, hp⟩ := List.exists_cons_of_ne_nil hne
  have hlinked := h.linked
  rw [hp] at hlinked
  obtain ⟨⟨f, hf, -, hparent⟩, htail⟩ := hlinked
  intro hmem
  rw [top, hp] at hmem
  have hle : x ≤ xs.headD 0 := h.mem_le_headD htail hmem
  have hlt : xs.headD 0 < x := h.lt_of_parent hf hparent
  omega

/-! ### The state at the start, and a later bound -/

theorem start (count : Nat) : Coherent (count - 1) 0 (init count) := by
  have hframes : ∀ {i : Nat} {f : Frame}, (init count).frames[i]? = some f →
      i = 0 ∧ f = moduleFrame (count - 1) := by
    intro i f hf
    cases i with
    | zero => exact ⟨rfl, (Option.some.inj hf).symm⟩
    | succ i => cases hf
  constructor
  case root => rfl
  case childIds_eq => rfl
  case linked => exact True.intro
  case id_eq =>
    intro i f hf
    obtain ⟨rfl, rfl⟩ := hframes hf
    rfl
  case heads =>
    intro i k f hf hk
    obtain ⟨rfl, rfl⟩ := hframes hf
    cases hk
  case nested =>
    intro i p e f g hf hp
    obtain ⟨rfl, rfl⟩ := hframes hf
    cases hp
  case lines =>
    intro l k hl
    cases hl
  -- Everything else is about frames other than the module.
  all_goals
    intro i
    intros
    have hi := (hframes ‹(init count).frames[i]? = _›).1
    omega

theorem mono (h : Coherent last m b) : Coherent last (m + 1) b :=
  { h with
    start_lt := fun hf hi => Nat.lt_succ_of_lt (h.start_lt hf hi)
    stop_lt := fun hf hi he =>
      let ⟨hle, hlt⟩ := h.stop_lt hf hi he
      ⟨hle, Nat.lt_succ_of_lt hlt⟩ }

/-! ### The four changes -/

/-- A line is given a frame that reaches it. -/
theorem assign (h : Coherent last m b) {k : Nat} {f : Frame} (hf : b.frames[k]? = some f)
    (hstart : f.start ≤ b.lineFrames.size)
    (hstop : ∀ e, 0 < k → f.stop = some e → b.lineFrames.size ≤ e) :
    Coherent last m (b.assign k) :=
  { h with
    lines := by
      intro l k' hl
      rw [show (b.assign k).lineFrames = b.lineFrames.push k from rfl, Array.getElem?_push] at hl
      split at hl
      · rename_i hsize
        cases hl
        exact ⟨f, hf, hsize ▸ hstart, fun e hk he => hsize ▸ hstop e hk he⟩
      · exact h.lines hl }

end Coherent

/-- Closing a frame gives it a last line and leaves the other frames alone. -/
theorem of_frame_pop {i : Nat} {f' : Frame} (hf : (b.pop l).frames[i]? = some f') :
    ∃ f, b.frames[i]? = some f ∧ (∃ e, f' = { f with stop := e }) ∧
      (b.top = i ∧ f'.stop = some l ∨ b.top ≠ i ∧ f'.stop = f.stop) := by
  rw [show (b.pop l).frames = b.frames.modify b.top (Frame.closedAt · l) from rfl,
    Array.getElem?_modify] at hf
  split at hf
  · rename_i htop
    obtain ⟨f, hf₀, rfl⟩ := Option.map_eq_some_iff.1 hf
    exact ⟨f, hf₀, ⟨some l, rfl⟩, .inl ⟨htop, rfl⟩⟩
  · rename_i htop
    exact ⟨f', hf, ⟨f'.stop, rfl⟩, .inr ⟨htop, rfl⟩⟩

theorem frame_pop {i : Nat} {f : Frame} (hf : b.frames[i]? = some f) :
    (b.pop l).frames[i]? = some (if b.top = i then f.closedAt l else f) := by
  rw [show (b.pop l).frames = b.frames.modify b.top (Frame.closedAt · l) from rfl,
    Array.getElem?_modify]
  split <;> simp [hf]

theorem lt_size {i : Nat} {f : Frame} (hf : b.frames[i]? = some f) : i < b.frames.size :=
  (Array.getElem?_eq_some_iff.1 hf).1

/-- A frame that is added comes last. -/
theorem of_frame_push {i : Nat} {f g : Frame} (hf : (b.frames.push g)[i]? = some f) :
    i = b.frames.size ∧ f = g ∨ b.frames[i]? = some f := by
  rw [Array.getElem?_push] at hf
  split at hf
  · rename_i hi
    exact .inl ⟨hi, (Option.some.inj hf).symm⟩
  · exact .inr hf

theorem frame_push {i : Nat} {f g : Frame} (hf : b.frames[i]? = some f) :
    (b.frames.push g)[i]? = some f := by
  rw [Array.getElem?_push, if_neg (Nat.ne_of_lt (lt_size hf)), hf]

namespace Coherent

section

variable (h : Coherent last (l + 1) b) (hne : b.pending ≠ [])
include h hne

theorem stop_of_top_eq {i : Nat} {f : Frame} (hf : b.frames[i]? = some f) (htop : b.top = i) :
    f.stop = none := by
  subst htop
  exact (h.isOpen hf (h.top_pos hne)).2 (top_mem hne)

theorem isOpen_pop {i : Nat} {f' : Frame} (hf' : (b.pop l).frames[i]? = some f') (hi : 0 < i) :
    f'.stop = none ↔ i ∈ (b.pop l).pending := by
  show f'.stop = none ↔ i ∈ b.pending.tail
  obtain ⟨x, xs, hp⟩ := List.exists_cons_of_ne_nil hne
  have htop : b.top = x := by rw [top, hp]; rfl
  obtain ⟨f, hf, -, ⟨hti, hstop⟩ | ⟨hti, hstop⟩⟩ := of_frame_pop hf'
  · subst hti
    simp [hstop, h.top_notMem_tail hne]
  · rw [hstop, h.isOpen hf hi, hp, List.mem_cons]
    simp [show i ≠ x by omega]

theorem nested_pop {i p e : Nat} {f' g' : Frame} (hf' : (b.pop l).frames[i]? = some f')
    (hfp : f'.parent = some p) (hpos : 0 < p) (hg' : (b.pop l).frames[p]? = some g')
    (he : g'.stop = some e) : ∃ e', f'.stop = some e' ∧ e' ≤ e := by
  obtain ⟨f, hf, ⟨e', rfl⟩, hfstop⟩ := of_frame_pop hf'
  obtain ⟨g, hg, -, hgstop⟩ := of_frame_pop hg'
  have hlt : p < i := h.lt_of_parent hf hfp
  rcases hfstop with ⟨hti, hfstop⟩ | ⟨-, hfstop⟩ <;>
    rcases hgstop with ⟨htg, hgstop⟩ | ⟨-, hgstop⟩
  · omega
  · -- An open frame does not lie in a closed one.
    obtain ⟨e'', he'', -⟩ := h.nested hf hfp hpos hg (hgstop ▸ he)
    rw [h.stop_of_top_eq hne hf hti] at he''
    cases he''
  · -- The parent is the frame that is being closed: its children are closed already.
    obtain ⟨e'', he''⟩ := Option.ne_none_iff_exists'.1
      (h.stop_ne_none_of_parent_top hf (htg ▸ hfp))
    have hend := (h.stop_lt hf (by omega) he'').2
    rw [hgstop, Option.some.injEq] at he
    exact ⟨e'', hfstop.trans he'', by omega⟩
  · rw [hfstop]
    exact h.nested hf hfp hpos hg (hgstop ▸ he)

theorem siblings_pop {i j : Nat} {f' g' : Frame} (hf' : (b.pop l).frames[i]? = some f')
    (hg' : (b.pop l).frames[j]? = some g') (hi : 0 < i) (hij : i < j)
    (hpar : f'.parent = g'.parent) : ∃ e, f'.stop = some e ∧ e < g'.start := by
  obtain ⟨g, hg, ⟨e, rfl⟩, -⟩ := of_frame_pop hg'
  obtain ⟨f, hf, ⟨e', rfl⟩, hfstop⟩ := of_frame_pop hf'
  obtain ⟨e'', he'', hlt⟩ := h.siblings hf hg hi hij hpar
  rcases hfstop with ⟨hti, -⟩ | ⟨-, hfstop⟩
  · rw [h.stop_of_top_eq hne hf hti] at he''
    cases he''
  · exact ⟨e'', hfstop.trans he'', hlt⟩

/-- The innermost open frame is closed on the last line that the bound allows. -/
theorem pop (hsize : b.lineFrames.size ≤ l + 1) : Coherent last (l + 1) (b.pop l) := by
  constructor
  case root =>
    have hpos := h.top_pos hne
    rw [frame_pop h.root, if_neg (by omega)]
  case childIds_eq =>
    refine h.childIds_eq.trans (childLists_congr fun i => ?_).symm
    rw [show (b.pop l).frames = b.frames.modify b.top (Frame.closedAt · l) from rfl,
      Array.getElem?_modify]
    cases b.frames[i]? <;> split <;> rfl
  case id_eq =>
    intro i f' hf'
    obtain ⟨f, hf, ⟨e, rfl⟩, -⟩ := of_frame_pop hf'
    show f.id = i
    exact h.id_eq hf
  case construct_ne =>
    intro i f' hf' hi
    obtain ⟨f, hf, ⟨e, rfl⟩, -⟩ := of_frame_pop hf'
    show f.construct ≠ .module
    exact h.construct_ne hf hi
  case parent_lt =>
    intro i f' hf' hi
    obtain ⟨f, hf, ⟨e, rfl⟩, -⟩ := of_frame_pop hf'
    show ∃ p, f.parent = some p ∧ p < i
    exact h.parent_lt hf hi
  case start_lt =>
    intro i f' hf' hi
    obtain ⟨f, hf, ⟨e, rfl⟩, -⟩ := of_frame_pop hf'
    show f.start < l + 1
    exact h.start_lt hf hi
  case starts =>
    intro i j f' g' hf' hg' hi hij
    obtain ⟨f, hf, ⟨e, rfl⟩, -⟩ := of_frame_pop hf'
    obtain ⟨g, hg, ⟨e', rfl⟩, -⟩ := of_frame_pop hg'
    show f.start < g.start
    exact h.starts hf hg hi hij
  case isOpen => exact h.isOpen_pop hne
  case stop_lt =>
    intro i e f' hf' hi he
    obtain ⟨f, hf, ⟨e', rfl⟩, ⟨-, hstop⟩ | ⟨-, hstop⟩⟩ := of_frame_pop hf'
    · have hlt : f.start < l + 1 := h.start_lt hf hi
      rw [hstop, Option.some.injEq] at he
      show f.start ≤ e ∧ e < l + 1
      omega
    · rw [hstop] at he
      show f.start ≤ e ∧ e < l + 1
      exact h.stop_lt hf hi he
  case nested => exact h.nested_pop hne
  case siblings => exact h.siblings_pop hne
  case linked =>
    show Linked (b.pop l).frames b.pending.tail
    refine h.linked.tail.congr fun i f hf => ⟨_, frame_pop hf, ?_⟩
    split <;> rfl
  case heads =>
    intro i k f' hf' hk
    obtain ⟨f, hf, ⟨e, rfl⟩, -⟩ := of_frame_pop hf'
    obtain ⟨g, hg, hpos, hgp, hgh⟩ := h.heads hf hk
    refine ⟨_, frame_pop hg, hpos, ?_⟩
    split <;> exact ⟨hgp, hgh⟩
  case lines =>
    intro l' k hl'
    obtain ⟨f, hf, hstart, hstop⟩ := h.lines hl'
    have hlt : l' < b.lineFrames.size := (Array.getElem?_eq_some_iff.1 hl').1
    refine ⟨_, frame_pop hf, ?_, ?_⟩
    · split <;> exact hstart
    · intro e hk he
      split at he
      · cases he
        omega
      · exact hstop e hk he

end

section

variable (h : Coherent last m b) {g : Frame} {pending : List Nat}
include h

theorem isOpen_add (hid : g.id = b.frames.size)
    (hstop : g.stop = none ∧ pending = g.id :: b.pending ∨ g.stop = some m ∧ pending = b.pending)
    {i : Nat} {f : Frame} (hf : (b.frames.push g)[i]? = some f) (hi : 0 < i) :
    f.stop = none ↔ i ∈ pending := by
  have hsize : b.frames.size ∉ b.pending := by
    intro hmem
    obtain ⟨f, hf, -⟩ := h.linked.exists_frame hmem
    exact Nat.lt_irrefl _ (lt_size hf)
  rcases of_frame_push hf with ⟨rfl, rfl⟩ | hf
  · rcases hstop with ⟨hs, rfl⟩ | ⟨hs, rfl⟩ <;> simp [hs, hid, hsize]
  · rw [h.isOpen hf hi]
    rcases hstop with ⟨-, rfl⟩ | ⟨-, rfl⟩
    · simp [hid, Nat.ne_of_lt (lt_size hf)]
    · rfl

theorem nested_add (hparent : g.parent = some b.top) {i p e : Nat} {f f' : Frame}
    (hfn : (b.frames.push g)[i]? = some f) (hfp : f.parent = some p) (hp : 0 < p)
    (hfn' : (b.frames.push g)[p]? = some f') (he : f'.stop = some e) :
    ∃ e', f.stop = some e' ∧ e' ≤ e := by
  rcases of_frame_push hfn with ⟨rfl, rfl⟩ | hf <;> rcases of_frame_push hfn' with ⟨rfl, rfl⟩ | hf'
  · rw [hparent, Option.some.injEq] at hfp
    have := h.top_lt_size
    omega
  · -- The new frame lies in the innermost open one, which is not closed.
    rw [hparent, Option.some.injEq] at hfp
    obtain ⟨t, ht, htop, -⟩ := h.top_frame
    rw [hfp, hf', Option.some.injEq] at ht
    rw [← ht, he] at htop
    exact absurd (htop (hfp ▸ hp)).1 (by simp)
  · have hbefore := h.lt_of_parent hf hfp
    have := lt_size hf
    omega
  · exact h.nested hf hfp hp hf' he

theorem siblings_add (hstart : g.start = m) (hparent : g.parent = some b.top) {i j : Nat}
    {f f' : Frame} (hfn : (b.frames.push g)[i]? = some f)
    (hfn' : (b.frames.push g)[j]? = some f') (hi : 0 < i) (hij : i < j)
    (hpar : f.parent = f'.parent) : ∃ e, f.stop = some e ∧ e < f'.start := by
  rcases of_frame_push hfn' with ⟨rfl, rfl⟩ | hf' <;> rcases of_frame_push hfn with ⟨rfl, rfl⟩ | hf
  · omega
  · obtain ⟨e, he⟩ := Option.ne_none_iff_exists'.1
      (h.stop_ne_none_of_parent_top hf (hpar.trans hparent))
    exact ⟨e, he, hstart ▸ (h.stop_lt hf hi he).2⟩
  · have := lt_size hf'
    omega
  · exact h.siblings hf hf' hi hij hpar

/-- A frame is added that starts on the first line the bound excludes. It is open, or ends where
it starts. -/
theorem add (hid : g.id = b.frames.size) (hc : g.construct ≠ .module) (hstart : g.start = m)
    (hparent : g.parent = some b.top)
    (hhead : ∀ k, g.head = some k →
      ∃ f, b.frames[k]? = some f ∧ 0 < k ∧ f.parent = some b.top ∧ f.head = none)
    (hstop : g.stop = none ∧ pending = g.id :: b.pending ∨
      g.stop = some m ∧ pending = b.pending) :
    Coherent last (m + 1)
      { b with
        frames := b.frames.push g
        childIds := addChild b.childIds g
        pending := pending } := by
  have hpos : 0 < b.frames.size := lt_size h.root
  constructor
  case root => exact frame_push h.root
  case childIds_eq =>
    show addChild b.childIds g = childLists (b.frames.push g).toList
    rw [h.childIds_eq, Array.toList_push]
    refine (childLists_concat (fun f hf p hp => ?_) hparent ?_).symm
    · obtain ⟨i, hi⟩ := List.getElem?_of_mem hf
      rw [Array.getElem?_toList] at hi
      have hlt := h.lt_of_parent hi hp
      have := lt_size hi
      rw [Array.length_toList]
      omega
    · rw [Array.length_toList]
      exact h.top_lt_size
  case id_eq =>
    intro i f hfn
    rcases of_frame_push hfn with ⟨rfl, rfl⟩ | hf
    · exact hid
    · exact h.id_eq hf
  case construct_ne =>
    intro i f hfn hi
    rcases of_frame_push hfn with ⟨rfl, rfl⟩ | hf
    · exact hc
    · exact h.construct_ne hf hi
  case parent_lt =>
    intro i f hfn hi
    rcases of_frame_push hfn with ⟨rfl, rfl⟩ | hf
    · exact ⟨b.top, hparent, h.top_lt_size⟩
    · exact h.parent_lt hf hi
  case start_lt =>
    intro i f hfn hi
    rcases of_frame_push hfn with ⟨rfl, rfl⟩ | hf
    · omega
    · exact Nat.lt_succ_of_lt (h.start_lt hf hi)
  case starts =>
    intro i j f f' hfn hfn' hi hij
    rcases of_frame_push hfn' with ⟨rfl, rfl⟩ | hf' <;>
      rcases of_frame_push hfn with ⟨rfl, rfl⟩ | hf
    · omega
    · rw [hstart]
      exact h.start_lt hf hi
    · have := lt_size hf'
      omega
    · exact h.starts hf hf' hi hij
  case isOpen => exact h.isOpen_add hid hstop
  case stop_lt =>
    intro i e f hfn hi he
    rcases of_frame_push hfn with ⟨rfl, rfl⟩ | hf
    · rcases hstop with ⟨hs, -⟩ | ⟨hs, -⟩ <;> rw [hs] at he <;> cases he
      omega
    · obtain ⟨hle, hlt⟩ := h.stop_lt hf hi he
      exact ⟨hle, Nat.lt_succ_of_lt hlt⟩
  case nested => exact h.nested_add hparent
  case siblings => exact h.siblings_add hstart hparent
  case linked =>
    have hlinked : Linked (b.frames.push g) b.pending :=
      h.linked.congr fun i f hf => ⟨f, frame_push hf, rfl⟩
    rcases hstop with ⟨-, rfl⟩ | ⟨-, rfl⟩
    · refine ⟨⟨g, ?_, ?_, hparent⟩, hlinked⟩
      · rw [hid, Array.getElem?_push_size]
      · omega
    · exact hlinked
  case heads =>
    intro i k f hfn hk
    rcases of_frame_push hfn with ⟨rfl, rfl⟩ | hf
    · obtain ⟨f', hf', hkpos, hfp, hfh⟩ := hhead k hk
      exact ⟨f', frame_push hf', hkpos, hfp.trans hparent.symm, hfh⟩
    · obtain ⟨f', hf', hrest⟩ := h.heads hf hk
      exact ⟨f', frame_push hf', hrest⟩
  case lines =>
    intro l k hl
    obtain ⟨f, hf, hrest⟩ := h.lines hl
    exact ⟨f, frame_push hf, hrest⟩

end

/-! ### One line -/

theorem openFrame (h : Coherent last m b) {o : Opening} {head : Option Nat}
    (ho : o.construct ≠ .module)
    (hhead : ∀ k, head = some k →
      ∃ f, b.frames[k]? = some f ∧ 0 < k ∧ f.parent = some b.top ∧ f.head = none) :
    Coherent last (m + 1) (b.push (b.newFrame o m head)) :=
  h.add rfl ho rfl rfl hhead (.inl ⟨rfl, rfl⟩)

/-- A frame other than the module's is on the stack when it is the innermost one. -/
theorem pending_ne_nil (h : Coherent last m b) (hc : b.topConstruct ≠ .module) :
    b.pending ≠ [] := by
  intro hp
  apply hc
  rw [topConstruct, top, hp, List.headD_nil, h.root]
  rfl

theorem pending_ne_nil_of_isClause (h : Coherent last m b)
    (hc : b.topConstruct.isClause = true) : b.pending ≠ [] := by
  apply h.pending_ne_nil
  intro hm
  rw [hm] at hc
  cases hc

/-- An open frame was opened on an earlier line. -/
theorem bound_pos (h : Coherent last m b) (hne : b.pending ≠ []) : 0 < m := by
  obtain ⟨f, hf, hpos⟩ := h.linked.exists_frame (top_mem hne)
  exact Nat.lt_of_le_of_lt (Nat.zero_le _) (h.start_lt hf hpos)

theorem popClauses (ids : List Nat) (h : Coherent last (l + 1) b)
    (hsize : b.lineFrames.size ≤ l + 1) :
    Coherent last (l + 1) (popClauses l ids b) ∧
      (ScopeBuilder.popClauses l ids b).lineFrames = b.lineFrames := by
  induction ids generalizing b with
  | nil => exact ⟨h, rfl⟩
  | cons x xs ih =>
      rw [ScopeBuilder.popClauses]
      by_cases hc : b.topConstruct.isClause = true
      · rw [if_pos hc]
        exact ih (h.pop (h.pending_ne_nil_of_isClause hc) hsize) hsize
      · rw [if_neg hc]
        exact ⟨h, rfl⟩

/-- A line that closes a block, or nothing. -/
theorem close (h : Coherent last (l + 1) b) (hsize : b.lineFrames.size = l) :
    Coherent last (l + 1) (b.close l) ∧ (b.close l).lineFrames.size = l + 1 := by
  obtain ⟨hc, hlines⟩ := h.popClauses b.pending (by omega)
  rw [ScopeBuilder.close]
  generalize ScopeBuilder.popClauses l b.pending b = c at hc hlines
  have hsize' : c.lineFrames.size = l := by rw [hlines, hsize]
  dsimp only
  split
  · -- There is nothing to close, and the line belongs to the module.
    refine ⟨?_, by simp [ScopeBuilder.assign, hsize']⟩
    have hassign := hc.assign hc.root (Nat.zero_le _) (by omega)
    exact { hassign with }
  · -- The line that closes a block belongs to the block.
    rename_i hne
    have hne' : c.pending ≠ [] := by simpa using hne
    refine ⟨?_, by simp [ScopeBuilder.assign, ScopeBuilder.pop, setStop, hsize']⟩
    obtain ⟨f, hf, htop, h0⟩ := hc.top_frame
    have hf' := frame_pop (l := l) hf
    rw [if_pos rfl] at hf'
    refine (hc.pop hne' (by omega)).assign hf' ?_ ?_
    · show f.start ≤ c.lineFrames.size
      rcases Nat.eq_zero_or_pos c.top with h' | h'
      · rw [h0 h']
        exact Nat.zero_le _
      · have := (htop h').2
        omega
    · intro e _ he
      cases he
      exact Nat.le_of_eq hsize'

theorem assignTop (h : Coherent last m b) (hsize : b.lineFrames.size = m) :
    Coherent last m (b.assign b.top) := by
  obtain ⟨f, hf, htop, h0⟩ := h.top_frame
  refine h.assign hf ?_ ?_
  · rcases Nat.eq_zero_or_pos b.top with h' | h'
    · rw [h0 h']
      exact Nat.zero_le _
    · rw [hsize]
      exact Nat.le_of_lt (htop h').2
  · intro e hpos he
    rw [(htop hpos).1] at he
    cases he

end Coherent

/-- The state behind the first `n` lines. -/
structure Behind (last n : Nat) (b : ScopeBuilder) : Prop where
  coherent : Coherent last n b
  size_eq : b.lineFrames.size = n

namespace Behind

variable {n : Nat}

theorem assignTop (h : Behind last n b) : Behind last (n + 1) (b.assign b.top) :=
  ⟨(h.coherent.assignTop h.size_eq).mono, by simp [ScopeBuilder.assign, h.size_eq]⟩

/-- A header belongs to the frame around it. -/
theorem openFrame (h : Behind last n b) {o : Opening} {head : Option Nat}
    (ho : o.construct ≠ .module)
    (hhead : ∀ k, head = some k →
      ∃ f, b.frames[k]? = some f ∧ 0 < k ∧ f.parent = some b.top ∧ f.head = none) :
    Behind last (n + 1) ((b.assign b.top).push (b.newFrame o n head)) :=
  ⟨(h.coherent.assignTop h.size_eq).openFrame ho hhead,
    by simp [ScopeBuilder.assign, push, h.size_eq]⟩

theorem close (h : Behind last n b) : Behind last (n + 1) (b.close n) :=
  let ⟨hc, hsize⟩ := h.coherent.mono.close h.size_eq
  ⟨hc, hsize⟩

theorem ordinary_line (h : Behind last n b) (ts : List Token) :
    Behind last (n + 1) (b.ordinary ts n) := by
  rw [ordinary]
  cases ho : opening? ts with
  | none => exact h.assignTop
  | some o =>
      have hm : o.construct ≠ .module := (opening?_construct ho).1
      dsimp only
      by_cases hend : hasEnd ts.tail = true
      · -- A construct on one line is closed at once, and the line belongs to it.
        rw [if_pos hend]
        have hadd : Coherent last (n + 1) (b.addInline (b.newFrame o n none)) :=
          h.coherent.add rfl hm rfl rfl (by intro k hk; cases hk) (.inr ⟨rfl, rfl⟩)
        refine ⟨hadd.assign (f := { b.newFrame o n none with inline := true, stop := some n })
          ?_ ?_ ?_, ?_⟩
        · show (b.frames.push _)[b.frames.size]? = _
          rw [Array.getElem?_push_size]
          rfl
        · show n ≤ b.lineFrames.size
          exact Nat.le_of_eq h.size_eq.symm
        · intro e _ he
          cases he
          exact Nat.le_of_eq h.size_eq
        · simp [ScopeBuilder.assign, addInline, h.size_eq]
      · rw [if_neg hend]
        exact h.openFrame hm (by intro k hk; cases hk)

/-- A frame that ends on the line before. -/
theorem popBefore (h : Behind last n b) (hne : b.pending ≠ []) : Behind last n (b.pop (n - 1)) := by
  obtain ⟨l, rfl⟩ : ∃ l, n = l + 1 := ⟨n - 1, by have := h.coherent.bound_pos hne; omega⟩
  exact ⟨h.coherent.pop hne (Nat.le_of_eq h.size_eq), h.size_eq⟩

theorem endClause (h : Behind last n b) : Behind last n (b.endClause n) := by
  rw [ScopeBuilder.endClause]
  by_cases hc : b.topConstruct.isClause = true
  · rw [if_pos hc]
    exact h.popBefore (h.coherent.pending_ne_nil_of_isClause hc)
  · rw [if_neg hc]
    exact h

/-- The head of the chain that the innermost open frame belongs to lies in the frame that is the
innermost one once that frame is closed. -/
theorem chainHead_pop (h : Behind last n b) (hne : b.pending ≠ []) {l k : Nat}
    (hk : (b.frames[b.top]?.map Frame.chainHead).getD b.top = k) :
    ∃ f, (b.pop l).frames[k]? = some f ∧ 0 < k ∧ f.parent = some (b.pop l).top ∧
      f.head = none := by
  obtain ⟨x, xs, hp⟩ : ∃ x xs, b.pending = x :: xs := List.exists_cons_of_ne_nil hne
  have hlinked := h.coherent.linked
  rw [hp] at hlinked
  obtain ⟨⟨t, ht, hpos, htp⟩, -⟩ := hlinked
  have htop : b.top = x := by rw [top, hp]; rfl
  have htop' : (b.pop l).top = xs.headD 0 := by
    rw [top, ScopeBuilder.pop, hp]
    rfl
  rw [htop, ht, Option.map_some, Option.getD_some, Frame.chainHead] at hk
  rw [htop']
  cases hhead : t.head with
  | none =>
      -- The frame is the head of its chain.
      rw [hhead, Option.getD_none, h.coherent.id_eq ht] at hk
      subst hk
      refine ⟨_, frame_pop ht, hpos, ?_⟩
      rw [if_pos htop]
      exact ⟨htp, hhead⟩
  | some j =>
      -- The frame continues a chain; all parts of a chain have one parent.
      rw [hhead, Option.getD_some] at hk
      subst hk
      obtain ⟨g, hg, hjpos, hgp, hgh⟩ := h.coherent.heads ht hhead
      refine ⟨_, frame_pop hg, hjpos, ?_⟩
      split <;> exact ⟨hgp.trans htp, hgh⟩

theorem branch? (h : Behind last n b) {c : Construct} {closes : Bool} {b' : ScopeBuilder}
    (hc : c ≠ .module) (hb : b.branch? c n closes = some b') : Behind last (n + 1) b' := by
  rw [ScopeBuilder.branch?] at hb
  by_cases hcond : (!b.pending.isEmpty && c.continues b.topConstruct) = true
  · rw [if_pos hcond] at hb
    have hne : b.pending ≠ [] := by
      rw [Bool.and_eq_true] at hcond
      simpa using hcond.1
    have hpop := h.popBefore hne
    have hhead : ∀ k, some ((b.frames[b.top]?.map Frame.chainHead).getD b.top) = some k →
        ∃ f, (b.pop (n - 1)).frames[k]? = some f ∧ 0 < k ∧
          f.parent = some (b.pop (n - 1)).top ∧ f.head = none :=
      fun k hk => h.chainHead_pop hne (Option.some.inj hk)
    dsimp only at hb
    cases closes with
    | false =>
        rw [if_neg Bool.false_ne_true, Option.some.injEq] at hb
        subst hb
        exact hpop.openFrame hc hhead
    | true =>
        -- The branch is opened and closed on the same line.
        rw [if_pos rfl, Option.some.injEq] at hb
        subst hb
        obtain ⟨hclose, hsize⟩ := (hpop.coherent.openFrame (o := ⟨c, none⟩) hc hhead).close
          hpop.size_eq
        exact ⟨hclose, hsize⟩
  · rw [if_neg hcond] at hb
    cases hb

theorem clause? (h : Behind last n b) {c : Construct} {b' : ScopeBuilder} (hc : c ≠ .module)
    (hb : b.clause? c n = some b') : Behind last (n + 1) b' := by
  rw [ScopeBuilder.clause?] at hb
  split at hb <;> cases hb
  exact h.openFrame hc (by intro k hk; cases hk)

theorem statement_line (h : Behind last n b) (ts : List Token) :
    Behind last (n + 1) (b.statement ts n) := by
  rw [statement]
  split
  · exact h.ordinary_line ts
  · rename_i first rest hlead
    split
    · cases hbc : branchConstruct? first.text with
      | some c =>
          dsimp only
          cases hb : b.branch? c n (hasEnd rest) with
          | none => exact h.ordinary_line ts
          | some b' => exact h.branch? (branchConstruct?_ne_module hbc) hb
      | none =>
          cases hcc : clauseConstruct? first.text with
          | none => exact h.ordinary_line ts
          | some c =>
              dsimp only
              have hm : c ≠ .module := by
                rintro rfl
                cases isClause_of_clauseConstruct? hcc
              cases hb : (b.endClause n).clause? c n with
              | none => exact h.endClause.ordinary_line ts
              | some b' => exact h.endClause.clause? hm hb
    · exact h.ordinary_line ts

/-- What holds behind `n` lines holds behind one more, whatever it is. -/
theorem stepAt (h : Behind last n b) (ts : List Token) : Behind last (n + 1) (b.stepAt ts n) := by
  rw [ScopeBuilder.stepAt]
  split
  · exact h.assignTop
  · split
    · exact h.close
    · exact h.statement_line ts

end Behind
end ScopeBuilder

/-- The invariant behind the last line of a document. -/
theorem Document.behind_scopeState (doc : Document) :
    ScopeBuilder.Behind (doc.size - 1) doc.size doc.scopeState := by
  have h := ScopeBuilder.run_induction (motive := ScopeBuilder.Behind (doc.size - 1))
    (fun _ _ ts h => h.stepAt ts) (doc.lines.map Line.codeTokens) 0 (ScopeBuilder.init doc.size)
    ⟨ScopeBuilder.Coherent.start doc.size, rfl⟩
  rwa [Nat.zero_add, List.length_map] at h

end Polyloft
