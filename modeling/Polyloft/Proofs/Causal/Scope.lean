import Polyloft.Proofs.BlankLine.Scope
import Polyloft.Proofs.Place.Token
import Polyloft.Proofs.Scope.WellFormed

/-!
# Polyloft.Proofs.Causal.Scope

Scopes are causal: what the first lines of a document see of its scope tree does not depend on the
lines behind them. Later lines do change the tree. They close frames of earlier lines, and at the
end the last lines of open frames are set; but all this touches last lines only, and no question
about a line reads them.

## Proof shape

From a line `k` on, the pass only adds to what it has: `ScopeBuilder.Grows` says that the old
outlines and line frames are still there and that new frames start on line `k` or later. It is kept
by every operation, by a line and by a run. So the frames that were there before line `k` settle all
questions about earlier lines (`ScopeTree.Settled`), and these questions can be asked of the first
part of the tree instead. The first parts of two trees with the same first lines have the same
outlines.
-/

namespace Polyloft

open Polyloft.Text

/-! ### Lines -/

/-- The first lines are read before the others. -/
theorem take_linesFrom (k n : Nat) (inComment : Bool) (texts : List (List Char)) :
    (linesFrom n inComment texts).take k = linesFrom n inComment (texts.take k) := by
  induction k generalizing n inComment texts with
  | zero => rfl
  | succ k ih =>
      cases texts with
      | nil => rfl
      | cons text texts =>
          rw [linesFrom_cons, List.take_succ_cons, List.take_succ_cons, linesFrom_cons, ih]

/-- Two documents read from texts with the same first `k` lines. -/
structure SameFirstLines (k : Nat) (doc doc' : Document) : Prop where
  lines : doc.lines.take k = doc'.lines.take k
  numbered : doc.IsNumbered
  numbered' : doc'.IsNumbered
  fits : ∀ l ∈ doc.lines, l.Fits
  fits' : ∀ l ∈ doc'.lines, l.Fits

theorem sameFirstLines_ofText {k : Nat} {text text' : List Char}
    (h : (linesOf text).take k = (linesOf text').take k) (uri uri' : Option String) :
    SameFirstLines k (Document.ofText text uri) (Document.ofText text' uri') where
  lines := by
    rw [Document.lines_ofText, Document.lines_ofText, take_linesFrom, take_linesFrom, h]
  numbered := Document.isNumbered_ofText text uri
  numbered' := Document.isNumbered_ofText text' uri'
  fits := fun _ hl => Document.fits_of_mem hl
  fits' := fun _ hl => Document.fits_of_mem hl

theorem Document.IsNumbered.mem_take_iff {doc : Document} (h : doc.IsNumbered) {k : Nat}
    {l : Line} : l ∈ doc.lines.take k ↔ l ∈ doc.lines ∧ l.index < k := by
  constructor
  · intro hl
    obtain ⟨n, hn⟩ := List.getElem?_of_mem hl
    have hlt : n < k := by
      have := (List.getElem?_eq_some_iff.1 hn).1
      rw [List.length_take] at this
      omega
    rw [List.getElem?_take_of_lt hlt] at hn
    exact ⟨List.mem_of_getElem? hn, by rw [h.index_eq hn]; exact hlt⟩
  · rintro ⟨hl, hlt⟩
    obtain ⟨n, hn⟩ := List.getElem?_of_mem hl
    rw [h.index_eq hn] at hlt
    rw [← List.getElem?_take_of_lt hlt] at hn
    exact List.mem_of_getElem? hn

namespace SameFirstLines

variable {k : Nat} {doc doc' : Document} (h : SameFirstLines k doc doc')
include h

theorem symm : SameFirstLines k doc' doc :=
  ⟨h.lines.symm, h.numbered', h.numbered, h.fits', h.fits⟩

theorem mem_of_lt {l : Line} (hl : l ∈ doc.lines) (hlt : l.index < k) : l ∈ doc'.lines := by
  have hmem := h.numbered.mem_take_iff.2 ⟨hl, hlt⟩
  rw [h.lines] at hmem
  exact (h.numbered'.mem_take_iff.1 hmem).1

theorem moved_eq {l : Line} (hl : l ∈ doc.lines.take k) : l.moved k = l := by
  obtain ⟨hl, hlt⟩ := h.numbered.mem_take_iff.1 hl
  have htokens : l.tokens.map (Token.moved k) = l.tokens := by
    refine (List.map_congr_left fun t ht => ?_).trans (List.map_id _)
    have hline : t.line < k := by rw [(h.fits l hl).line_eq t ht]; exact hlt
    rw [Token.moved, movedLine_of_lt hline, id]
  rw [Line.moved, movedLine_of_lt hlt, htokens]

/-- Both documents have `k` lines, or neither has a line behind them. -/
theorem le_size_or_lines_eq : k ≤ doc.size ∧ k ≤ doc'.size ∨ doc'.lines = doc.lines := by
  have hlines := h.lines
  have hlength := congrArg List.length hlines
  simp only [List.length_take] at hlength
  simp only [Document.size]
  by_cases hk : k ≤ doc.lines.length
  · exact .inl ⟨hk, by omega⟩
  · rw [List.take_of_length_le (by omega), List.take_of_length_le (by omega)] at hlines
    exact .inr hlines.symm

end SameFirstLines

/-! ### Growth -/

/-- The frames without their last lines. -/
def outlines (frames : Array Frame) : List Frame :=
  frames.toList.map (Frame.outline id)

theorem outlines_modify (frames : Array Frame) (i : Nat) (stop : Option Nat) :
    outlines (frames.modify i fun f => { f with stop }) = outlines frames := by
  have h := congrArg Array.toList (SameFrames.map_outline_modify frames i stop id)
  rwa [Array.toList_map, Array.toList_map] at h

theorem outlines_push (frames : Array Frame) (f : Frame) :
    outlines (frames.push f) = outlines frames ++ [f.outline id] := by
  simp [outlines]

/-- An outline shows as much through an outline. -/
theorem outline_outline_id (g : Nat → Nat) (f : Frame) :
    (f.outline id).outline g = f.outline g := by
  cases hparent : f.parent <;> simp [Frame.outline, hparent]

theorem start_outline_id_le (f : Frame) : (f.outline id).start ≤ f.start := by
  simp only [Frame.outline]
  split
  · exact Nat.le_refl _
  · exact Nat.zero_le _

namespace ScopeBuilder

/-- The second state has the frames of the first one, up to their last lines, then frames that start
on line `k` or later; and it has the line frames of the first one, then further ones. -/
structure Grows (k : Nat) (b b' : ScopeBuilder) : Prop where
  frames : ∃ new, outlines b'.frames = outlines b.frames ++ new ∧ ∀ g ∈ new, k ≤ g.start
  lineFrames : b.lineFrames.toList <+: b'.lineFrames.toList

namespace Grows

variable {k n : Nat} {b₀ b : ScopeBuilder}

theorem refl (k : Nat) (b : ScopeBuilder) : Grows k b b :=
  ⟨⟨[], by simp, by simp⟩, List.prefix_refl _⟩

theorem pop (h : Grows k b₀ b) (l : Nat) : Grows k b₀ (b.pop l) := by
  refine ⟨?_, h.lineFrames⟩
  have hframes := outlines_modify b.frames b.top (some l)
  rw [ScopeBuilder.pop]
  exact hframes ▸ h.frames

theorem assign (h : Grows k b₀ b) (i : Nat) : Grows k b₀ (b.assign i) := by
  refine ⟨h.frames, h.lineFrames.trans ?_⟩
  rw [ScopeBuilder.assign, Array.toList_push]
  exact List.prefix_append _ _

/-- A new frame starts late enough. -/
theorem frames_push (h : Grows k b₀ b) {f : Frame} (hparent : f.parent.isSome = true)
    (hstart : k ≤ f.start) :
    ∃ new, outlines (b.frames.push f) = outlines b₀.frames ++ new ∧ ∀ g ∈ new, k ≤ g.start := by
  obtain ⟨new, hnew, hstarts⟩ := h.frames
  refine ⟨new ++ [f.outline id], by rw [outlines_push, hnew, List.append_assoc], ?_⟩
  intro g hg
  rcases List.mem_append.1 hg with hg | hg
  · exact hstarts g hg
  · rw [List.mem_singleton.1 hg]
    simpa [Frame.outline, hparent] using hstart

theorem push (h : Grows k b₀ b) {f : Frame} (hparent : f.parent.isSome = true)
    (hstart : k ≤ f.start) : Grows k b₀ (b.push f) :=
  ⟨h.frames_push hparent hstart, h.lineFrames⟩

theorem addInline (h : Grows k b₀ b) {f : Frame} (hparent : f.parent.isSome = true)
    (hstart : k ≤ f.start) : Grows k b₀ (b.addInline f) :=
  ⟨h.frames_push (f := { f with inline := true, stop := some f.start }) hparent hstart,
    h.lineFrames⟩

theorem popClauses (h : Grows k b₀ b) (l : Nat) (ids : List Nat) :
    Grows k b₀ (ScopeBuilder.popClauses l ids b) := by
  induction ids generalizing b with
  | nil => exact h
  | cons i ids ih =>
      rw [ScopeBuilder.popClauses]
      split
      · exact ih (h.pop l)
      · exact h

theorem close (h : Grows k b₀ b) (l : Nat) : Grows k b₀ (b.close l) := by
  have hpopped := h.popClauses l b.pending
  rw [ScopeBuilder.close]
  dsimp only
  split
  · exact ⟨(hpopped.assign 0).frames, (hpopped.assign 0).lineFrames⟩
  · exact (hpopped.pop l).assign _

section

variable (hn : k ≤ n)
include hn

theorem branch? (h : Grows k b₀ b) (c : Construct) (closes : Bool) {b' : ScopeBuilder}
    (hb' : b.branch? c n closes = some b') : Grows k b₀ b' := by
  rw [ScopeBuilder.branch?] at hb'
  split at hb'
  · dsimp only at hb'
    split at hb'
    · obtain rfl := Option.some.inj hb'
      exact ((h.pop (n - 1)).push rfl hn).close n
    · obtain rfl := Option.some.inj hb'
      exact ((h.pop (n - 1)).assign _).push rfl hn
  · simp at hb'

omit hn in
theorem endClause (h : Grows k b₀ b) (l : Nat) : Grows k b₀ (b.endClause l) := by
  rw [ScopeBuilder.endClause]
  split
  · exact h.pop _
  · exact h

theorem clause? (h : Grows k b₀ b) (c : Construct) {b' : ScopeBuilder}
    (hb' : b.clause? c n = some b') : Grows k b₀ b' := by
  rw [ScopeBuilder.clause?] at hb'
  split at hb'
  · obtain rfl := Option.some.inj hb'
    exact (h.assign _).push rfl hn
  · simp at hb'

theorem ordinary (h : Grows k b₀ b) (tokens : List Token) : Grows k b₀ (b.ordinary tokens n) := by
  rw [ScopeBuilder.ordinary]
  split
  · exact h.assign _
  · dsimp only
    split
    · exact (h.addInline rfl hn).assign _
    · exact (h.assign _).push rfl hn

omit hn in
theorem getD {o : Option ScopeBuilder} (ho : ∀ b', o = some b' → Grows k b₀ b')
    (h : Grows k b₀ b) : Grows k b₀ (o.getD b) := by
  cases o with
  | none => exact h
  | some b' => exact ho b' rfl

theorem statement (h : Grows k b₀ b) (tokens : List Token) :
    Grows k b₀ (b.statement tokens n) := by
  rw [ScopeBuilder.statement]
  split
  · exact h.ordinary hn tokens
  · split
    · split
      · exact getD (fun _ hb' => h.branch? hn _ _ hb') (h.ordinary hn tokens)
      · split
        · exact getD (fun _ hb' => (h.endClause n).clause? hn _ hb')
            ((h.endClause n).ordinary hn tokens)
        · exact h.ordinary hn tokens
    · exact h.ordinary hn tokens

/-- A line from `k` on only adds to what there is. -/
theorem stepAt (h : Grows k b₀ b) (tokens : List Token) : Grows k b₀ (b.stepAt tokens n) := by
  rw [ScopeBuilder.stepAt]
  split
  · exact h.assign _
  · split
    · exact h.close n
    · exact h.statement hn tokens

end

/-- So do lines one after the other. -/
theorem run (b : ScopeBuilder) (k : Nat) (xs : List (List Token)) : Grows k b (b.run k xs) := by
  have h := run_induction (motive := fun n b' => k ≤ n ∧ Grows k b b')
    (fun n b' ts h => ⟨Nat.le_succ_of_le h.1, h.2.stepAt h.1 ts⟩) xs k b
    ⟨Nat.le_refl k, .refl k b⟩
  exact h.2

end Grows

/-- Finishing sets last lines only. -/
theorem outlines_finishFrames (last : Nat) (ids : List Nat) (frames : Array Frame)
    (unclosed : List Nat) :
    outlines (finishFrames last ids (frames, unclosed)).1 = outlines frames := by
  induction ids generalizing frames unclosed with
  | nil => rfl
  | cons i ids ih =>
      rw [finishFrames]
      split
      · exact ih frames unclosed
      · split
        · exact ih frames unclosed
        · dsimp only
          rw [ih, outlines_modify, outlines_modify]

end ScopeBuilder

/-! ### The first part of a tree -/

namespace ScopeTree

/-- The first `m` frames with their children among each other, and the frames of the first `k`
lines. -/
def firstPart (tree : ScopeTree) (m k : Nat) : ScopeTree :=
  { frames := (tree.frames.toList.take m).toArray
    childIds := childLists (tree.frames.toList.take m)
    lineFrames := (tree.lineFrames.toList.take k).toArray
    stray := []
    unclosed := [] }

/-- What the first `k` lines see of the tree is settled by its first `m` frames: these lines are
held by them, they lie in each other, and no other frame starts on these lines. -/
structure Settled (m k : Nat) (tree : ScopeTree) : Prop where
  id_eq : ∀ {i : Nat} {f : Frame}, tree.frames[i]? = some f → f.id = i
  owner_lt : ∀ {n i : Nat}, n < k → tree.lineFrames[n]? = some i → i < m
  parent_lt : ∀ {i p : Nat} {f : Frame}, tree.frames[i]? = some f → f.parent = some p → p < i
  start_le : ∀ {i : Nat} {f : Frame}, m ≤ i → tree.frames[i]? = some f → k ≤ f.start
  children : tree.ListsChildren

namespace Settled

variable {m k : Nat} {tree : ScopeTree}

theorem frames_firstPart {i : Nat} (hi : i < m) :
    (tree.firstPart m k).frames[i]? = tree.frames[i]? := by
  rw [firstPart, ← Array.getElem?_toList, ← Array.getElem?_toList]
  exact List.getElem?_take_of_lt hi

theorem frame?_firstPart {i : Nat} (hi : i < m) :
    (tree.firstPart m k).frame? i = tree.frame? i :=
  frames_firstPart hi

theorem lineFrames_firstPart {n : Nat} (hn : n < k) :
    (tree.firstPart m k).lineFrames[n]? = tree.lineFrames[n]? := by
  rw [firstPart, ← Array.getElem?_toList, ← Array.getElem?_toList]
  exact List.getElem?_take_of_lt hn

variable (h : tree.Settled m k)
include h

theorem frameAt?_firstPart {n : Nat} (hn : n < k) :
    (tree.firstPart m k).frameAt? n = tree.frameAt? n := by
  rw [frameAt?, frameAt?, if_neg (by omega), if_neg (by omega), Int.toNat_natCast,
    lineFrames_firstPart hn]
  cases hi : tree.lineFrames[n]? with
  | none => rfl
  | some i => exact frame?_firstPart (h.owner_lt hn hi)

/-- The frame of an early line is one of the first frames. -/
theorem id_lt_of_frameAt? {n : Nat} (hn : n < k) {f : Frame} (hf : tree.frameAt? n = some f) :
    f.id < m ∧ tree.frames[f.id]? = some f := by
  rw [frameAt?, if_neg (by omega), Int.toNat_natCast] at hf
  obtain ⟨i, hi, hf⟩ := Option.bind_eq_some_iff.1 hf
  have hid := h.id_eq hf
  exact ⟨hid ▸ h.owner_lt hn hi, hid ▸ hf⟩

theorem parent_firstPart {i : Nat} (hi : i < m) {f : Frame} (hf : tree.frames[i]? = some f) :
    f.parent.bind (tree.firstPart m k).frame? = f.parent.bind tree.frame? := by
  cases hparent : f.parent with
  | none => rfl
  | some p =>
      have hp := h.parent_lt hf hparent
      exact frame?_firstPart (by omega)

omit h in
theorem ancestors_firstPart {i : Nat} (hi : i < m) :
    (tree.firstPart m k).ancestors i = tree.ancestors i := by
  induction i using Nat.strongRecOn with
  | ind i ih =>
      rw [ancestors, ancestors.eq_def tree, frames_firstPart hi]
      cases tree.frames[i]? with
      | none => rfl
      | some f =>
          dsimp only
          cases f.parent with
          | none => rfl
          | some p =>
              dsimp only
              by_cases hlt : p < i
              · rw [if_pos hlt, if_pos hlt, ih p hlt (by omega)]
              · rw [if_neg hlt, if_neg hlt]

/-- The frames around an early line are among the first ones. -/
theorem id_lt_of_mem_ancestors {i : Nat} (hi : i < m) {f : Frame} (hf : f ∈ tree.ancestors i) :
    f.id < m ∧ tree.frames[f.id]? = some f := by
  induction i using Nat.strongRecOn with
  | ind i ih =>
      rw [ancestors] at hf
      split at hf
      · simp at hf
      · rename_i g hg
        have hown : g.id < m ∧ tree.frames[g.id]? = some g := by
          rw [h.id_eq hg]
          exact ⟨hi, hg⟩
        split at hf
        · rw [List.mem_singleton.1 hf]
          exact hown
        · split at hf
          · rename_i p _ hlt
            rcases List.mem_cons.1 hf with rfl | hf
            · exact hown
            · exact ih p hlt (by omega) hf
          · rw [List.mem_singleton.1 hf]
            exact hown

theorem around_firstPart {n : Nat} (hn : n < k) :
    (tree.firstPart m k).around n = tree.around n := by
  rw [around, around, h.frameAt?_firstPart hn]
  cases hf : tree.frameAt? n with
  | none => rfl
  | some f => exact ancestors_firstPart (h.id_lt_of_frameAt? hn hf).1

/-- A frame that starts on an early line is one of the first frames. -/
theorem find?_firstPart {p : Frame → Bool} (hp : ∀ f, p f = true → f.start < k) :
    (tree.firstPart m k).frames.toList.find? p = tree.frames.toList.find? p := by
  have hnone : (tree.frames.toList.drop m).find? p = none := by
    rw [List.find?_eq_none]
    intro f hf hpf
    obtain ⟨j, hj⟩ := List.getElem?_of_mem hf
    rw [List.getElem?_drop, Array.getElem?_toList] at hj
    have := h.start_le (Nat.le_add_right m j) hj
    have := hp f hpf
    omega
  conv_rhs => rw [← List.take_append_drop m tree.frames.toList, List.find?_append, hnone]
  rw [Option.or_none]
  rfl

theorem openedAt?_firstPart {n : Nat} (hn : n < k) :
    (tree.firstPart m k).openedAt? n = tree.openedAt? n := by
  rw [openedAt?, openedAt?, ← Array.find?_toList, ← Array.find?_toList]
  refine h.find?_firstPart ?_
  intro f hf
  simp only [Bool.and_eq_true, beq_iff_eq, Int.natCast_inj] at hf
  omega

theorem children_firstPart : (tree.firstPart m k).ListsChildren := by
  have hframe {i : Nat} {f : Frame} (hf : (tree.firstPart m k).frames[i]? = some f) :
      tree.frames[i]? = some f := by
    rw [firstPart, List.getElem?_toArray, List.getElem?_take, Array.getElem?_toList] at hf
    split at hf
    · exact hf
    · cases hf
  exact listsChildren_of_childIds (fun hf => h.id_eq (hframe hf))
    (fun hf hp => h.parent_lt (hframe hf) hp) rfl

theorem branchAt?_firstPart {i n : Nat} (hn : n < k) :
    ((tree.firstPart m k).children i).find? (fun f => f.start == n) =
      (tree.children i).find? fun f => f.start == n := by
  rw [h.children_firstPart, h.children, List.find?_filter, List.find?_filter]
  refine h.find?_firstPart ?_
  intro f hf
  simp only [decide_eq_true_eq, beq_iff_eq] at hf
  omega

theorem contains_firstPart {n : Nat} (hn : n < k) (kind : BlockKind) :
    (tree.firstPart m k).contains n kind = tree.contains n kind := by
  have haround := h.around_firstPart hn
  have hmethods : (tree.around n).any (tree.firstPart m k).isMethod =
      (tree.around n).any tree.isMethod := by
    rw [Bool.eq_iff_iff, List.any_eq_true, List.any_eq_true]
    refine exists_congr fun f => and_congr_right fun hf => ?_
    rw [around] at hf
    split at hf
    · simp at hf
    · rename_i g hg
      obtain ⟨hlt, hf⟩ := h.id_lt_of_mem_ancestors (h.id_lt_of_frameAt? hn hg).1 hf
      rw [isMethod, isMethod, h.parent_firstPart hlt hf]
  cases kind with
  | classLike => simp only [contains, haround, hmethods]
  | loop | module | function | interface | conditional => simp only [contains, haround]

end Settled

/-! ### Trees with the same first lines -/

section

variable {doc doc' : Document} {k : Nat}

theorem build_congr (h : doc'.lines = doc.lines) : build doc' = build doc := by
  rw [build, build, Document.size, Document.size, h]

/-- The state of the pass behind the first `k` lines of a document. -/
def stateAt (doc : Document) (k : Nat) : ScopeBuilder :=
  (ScopeBuilder.init doc.size).run 0 ((doc.lines.take k).map Line.codeTokens)

theorem length_take_codeTokens (hk : k ≤ doc.size) :
    ((doc.lines.take k).map Line.codeTokens).length = k := by
  rw [List.length_map, List.length_take]
  exact Nat.min_eq_left hk

theorem behind_stateAt (hk : k ≤ doc.size) :
    ScopeBuilder.Behind (doc.size - 1) k (stateAt doc k) := by
  have h := ScopeBuilder.run_induction (motive := ScopeBuilder.Behind (doc.size - 1))
    (fun _ _ ts h => h.stepAt ts) ((doc.lines.take k).map Line.codeTokens) 0
    (ScopeBuilder.init doc.size) ⟨ScopeBuilder.Coherent.start doc.size, rfl⟩
  rwa [length_take_codeTokens hk, Nat.zero_add] at h

theorem grows_stateAt (hk : k ≤ doc.size) :
    ScopeBuilder.Grows k (stateAt doc k) doc.scopeState := by
  have hlines : doc.lines.map Line.codeTokens =
      (doc.lines.take k).map Line.codeTokens ++ (doc.lines.drop k).map Line.codeTokens := by
    rw [← List.map_append, List.take_append_drop]
  rw [Document.scopeState, hlines, ScopeBuilder.run_append, length_take_codeTokens hk,
    Nat.zero_add]
  exact .run _ k _

/-- The tree has the frames that the pass had found behind the first lines. -/
theorem outlines_build (hdoc : doc.IsNumbered) (hk : k ≤ doc.size) :
    ∃ new, outlines (build doc).frames = outlines (stateAt doc k).frames ++ new ∧
      ∀ g ∈ new, k ≤ g.start := by
  rw [build_eq_run hdoc, ScopeBuilder.finish, ScopeBuilder.outlines_finishFrames]
  exact (grows_stateAt hk).frames

theorem take_lineFrames_build (hdoc : doc.IsNumbered) (hk : k ≤ doc.size) :
    (build doc).lineFrames.toList.take k = (stateAt doc k).lineFrames.toList := by
  have hprefix := List.prefix_iff_eq_take.1 (grows_stateAt hk).lineFrames
  rw [Array.length_toList, (behind_stateAt hk).size_eq] at hprefix
  rw [build_eq_run hdoc, ScopeBuilder.finish]
  exact hprefix.symm

theorem length_outlines (frames : Array Frame) : (outlines frames).length = frames.size := by
  simp [outlines]

theorem settled_build (hdoc : doc.IsNumbered) (hk : k ≤ doc.size) :
    (build doc).Settled (stateAt doc k).frames.size k := by
  have hwell := wellFormed_of_isNumbered hdoc
  refine ⟨fun hf => hwell.id_eq hf, ?_, fun hf hp => (hwell.parent_lt hf hp).1, ?_,
    hwell.listsChildren⟩
  · intro n i hn hi
    rw [← Array.getElem?_toList, ← List.getElem?_take_of_lt hn, take_lineFrames_build hdoc hk,
      Array.getElem?_toList] at hi
    obtain ⟨f, hf, -⟩ := (behind_stateAt hk).coherent.lines hi
    exact (Array.getElem?_eq_some_iff.1 hf).1
  · intro i f hi hf
    obtain ⟨new, hnew, hstarts⟩ := outlines_build hdoc hk
    have hmem : (outlines (build doc).frames)[i]? = some (f.outline id) := by
      rw [outlines, List.getElem?_map, Array.getElem?_toList, hf]
      rfl
    rw [hnew, List.getElem?_append_right (by rw [length_outlines]; exact hi)] at hmem
    exact Nat.le_trans (hstarts _ (List.mem_of_getElem? hmem)) (start_outline_id_le f)

/-- The first part of a tree shows the frames of the pass, through every outline. -/
theorem map_outline_firstPart (hdoc : doc.IsNumbered) (hk : k ≤ doc.size) (g : Nat → Nat) :
    ((build doc).firstPart (stateAt doc k).frames.size k).frames.map (Frame.outline g) =
      (stateAt doc k).frames.map (Frame.outline g) := by
  obtain ⟨new, hnew, -⟩ := outlines_build hdoc hk
  have htake : ((build doc).frames.toList.take (stateAt doc k).frames.size).map (Frame.outline id) =
      (stateAt doc k).frames.toList.map (Frame.outline id) := by
    rw [List.map_take]
    show (outlines (build doc).frames).take _ = outlines (stateAt doc k).frames
    rw [hnew, ← length_outlines, List.take_left]
  have hg := congrArg (List.map (Frame.outline g)) htake
  simp only [List.map_map, Function.comp_def, outline_outline_id] at hg
  apply Array.toList_inj.1
  rw [Array.toList_map, Array.toList_map]
  exact hg

/-- The first parts of two trees show the same frames if the first lines are the same. -/
theorem moved_firstPart (h : SameFirstLines k doc doc') (hk : k ≤ doc.size) (hk' : k ≤ doc'.size) :
    (stateAt doc' k).frames.size = (stateAt doc k).frames.size ∧
      ScopeTree.Moved k ((build doc).firstPart (stateAt doc k).frames.size k)
        ((build doc').firstPart (stateAt doc k).frames.size k) := by
  have htokens : ((doc.lines.take k).map Line.codeTokens).map (List.map (Token.moved k)) =
      (doc'.lines.take k).map Line.codeTokens := by
    rw [← h.lines, List.map_map]
    refine List.map_congr_left fun l hl => ?_
    rw [Function.comp_apply, ← Line.codeTokens_moved, h.moved_eq hl]
  -- Behind the first lines the two passes differ in the last line of the module only.
  have hstate : ScopeBuilder.Moved k (fun l l' => l' = l) (stateAt doc k) (stateAt doc' k) := by
    have hrun := (ScopeBuilder.moved_init k doc.size doc'.size).run (by rintro l _ x rfl; rfl)
      ((doc.lines.take k).map Line.codeTokens) 0 0 (by
        intro i hi
        rw [length_take_codeTokens hk] at hi
        rw [Nat.zero_add, movedLine_of_lt hi])
    rwa [htokens] at hrun
  have hsize := hstate.frames.size_eq
  have hchildren := (settled_build h.numbered hk).children_firstPart
  have hchildren' := (settled_build h.numbered' hk').children_firstPart
  rw [hsize] at hchildren'
  refine ⟨hsize, ?_, ?_, rfl, rfl, hchildren, hchildren'⟩
  · have hframes := map_outline_firstPart h.numbered' hk' id
    rw [hsize] at hframes
    rw [SameFrames, hframes, map_outline_firstPart h.numbered hk]
    exact hstate.frames
  · intro n
    have heq : ((build doc').firstPart (stateAt doc k).frames.size k).lineFrames =
        ((build doc).firstPart (stateAt doc k).frames.size k).lineFrames := by
      rw [firstPart, firstPart, take_lineFrames_build h.numbered hk,
        take_lineFrames_build h.numbered' hk', hstate.lineFrames]
    rw [heq]
    rcases Nat.lt_or_ge n k with hn | hn
    · rw [movedLine_of_lt hn]
    · rw [movedLine_of_le hn, firstPart, ← Array.getElem?_toList, ← Array.getElem?_toList,
        List.getElem?_eq_none (by simp; omega), List.getElem?_eq_none (by simp; omega)]

end

/-- Two trees show the same of a line: its frame, the frames around it, innermost first, and which
kinds of construct it is inside of. -/
structure AgreeAt (tree tree' : ScopeTree) (n : Nat) : Prop where
  frameAt : (tree'.frameAt? n).map Frame.id = (tree.frameAt? n).map Frame.id
  around : (tree'.around n).map (fun f => (f.id, f.kind, f.construct.keyword, f.name)) =
    (tree.around n).map fun f => (f.id, f.kind, f.construct.keyword, f.name)
  contains : ∀ kind, tree'.contains n kind = tree.contains n kind

end ScopeTree

/-- The trees of two documents agree at the lines before which the documents are the same. -/
theorem SameFirstLines.agreeAt {k : Nat} {doc doc' : Document} (h : SameFirstLines k doc doc')
    {n : Nat} (hn : n < k) : (ScopeTree.build doc).AgreeAt (ScopeTree.build doc') n := by
  rcases h.le_size_or_lines_eq with ⟨hk, hk'⟩ | hlines
  · obtain ⟨hsize, hmoved⟩ := ScopeTree.moved_firstPart h hk hk'
    have hsettled := ScopeTree.settled_build h.numbered hk
    have hsettled' := ScopeTree.settled_build h.numbered' hk'
    rw [hsize] at hsettled'
    have hframeAt := hmoved.frameAt? n
    have haround := hmoved.around n
    have hcontains := hmoved.contains n
    simp only [movedLine_of_lt hn, hsettled.frameAt?_firstPart hn, hsettled.around_firstPart hn,
      hsettled.contains_firstPart hn, hsettled'.frameAt?_firstPart hn,
      hsettled'.around_firstPart hn, hsettled'.contains_firstPart hn]
      at hframeAt haround hcontains
    exact ⟨map_eq_of_outline hframeAt Frame.id fun _ _ => rfl, haround.map _ fun _ _ => rfl,
      hcontains⟩
  · rw [ScopeTree.build_congr hlines]
    exact ⟨rfl, rfl, fun _ => rfl⟩

end Polyloft
