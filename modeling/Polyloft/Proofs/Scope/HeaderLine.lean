import Polyloft.Proofs.Scope.Move
import Polyloft.Proofs.Scope.Origin

/-!
# Polyloft.Proofs.Scope.HeaderLine

Whose frame a header line belongs to. A construct with an `end` of its own is opened by a header:
a header followed by further lines belongs to the block around the construct, and a construct
written on one line holds that line itself. Branches of a chain and clauses of a switch have no
header, so nothing is said about them. A line that leaves the open blocks as they are (`Idle`) is
the first line of no block.

## Proof shape

`ScopeBuilder.Headed` is an invariant of the pass. Lines keep the frames they were given, and frames
keep everything but their last lines; what is left are the two moves that add a frame with a header,
and both give the current line its frame at once.
-/

namespace Polyloft

/-- A frame that a header of its own opened. -/
def Frame.HasHeader (f : Frame) : Prop :=
  f.head = none ∧ f.isImplicit = false

/-- The frame that holds the header: the block around the construct, unless it is written on one
line. -/
def Frame.headerHome (f : Frame) : Nat :=
  if f.inline then f.id else f.parent.getD 0

namespace ScopeBuilder

/-- Each header line has been given the frame that holds it. -/
def Headed (b : ScopeBuilder) : Prop :=
  ∀ (i : Nat) (f : Frame), b.frames[i]? = some f → 0 < i → f.HasHeader →
    b.lineFrames[f.start]? = some f.headerHome

namespace Headed

variable {b b' : ScopeBuilder} {tokens : List Token} {n last : Nat}

theorem init (count : Nat) : Headed (init count) := by
  intro i f hf hi
  rw [ScopeBuilder.init, Array.getElem?_eq_none hi] at hf
  simp at hf

theorem pop (h : Headed b) (l : Nat) : Headed (b.pop l) := by
  intro i f hf hi hheader
  obtain ⟨g, hg, ⟨e, rfl⟩, -⟩ := of_frame_pop hf
  exact h i g hg hi hheader

theorem assign (h : Headed b) (k : Nat) : Headed (b.assign k) := by
  intro i f hf hi hheader
  have hline := h i f hf hi hheader
  rw [show (b.assign k).lineFrames = b.lineFrames.push k from rfl, Array.getElem?_push,
    if_neg (Nat.ne_of_lt (Array.getElem?_eq_some_iff.1 hline).1), hline]

/-- A frame is added; if it has a header, that line already has its frame. -/
theorem add (h : Headed b) {f : Frame} (hframes : b'.frames = b.frames.push f)
    (hlines : b'.lineFrames = b.lineFrames)
    (hnew : f.HasHeader → b.lineFrames[f.start]? = some f.headerHome) : Headed b' := by
  intro i g hg hi hheader
  rw [hframes] at hg
  rw [hlines]
  rcases of_frame_push hg with ⟨-, rfl⟩ | hold
  · exact hnew hheader
  · exact h i g hold hi hheader

theorem of_sheds (h : Headed b) (hsheds : Sheds b b') :
    Headed b' ∧ b'.lineFrames = b.lineFrames := by
  induction hsheds with
  | refl => exact ⟨h, rfl⟩
  | clause _ _ l _ ih => exact ih (h.pop l)

/-- The innermost open frame stays open and gets the current line; a frame is added on it. -/
theorem enter (h : Headed b) (o : Opening) (head : Option Nat) :
    Headed ((b.assign b.top).push (b.newFrame o b.lineFrames.size head)) :=
  (h.assign b.top).add rfl rfl fun _ => Array.getElem?_push_size

theorem inline (h : Headed b) (o : Opening) :
    Headed ((b.addInline (b.newFrame o b.lineFrames.size none)).assign b.frames.size) :=
  (h.assign b.frames.size).add rfl rfl fun _ => Array.getElem?_push_size

theorem of_move (h : Headed b) (hsize : b.lineFrames.size = n) (hmove : Move tokens n b b') :
    Headed b' := by
  subst hsize
  -- A branch points to the head of its chain, so it has no header.
  have hbranch : ∀ c m, ¬ (b.nextBranch c m).HasHeader := fun c m hheader => by
    simp [Frame.HasHeader, nextBranch, newFrame] at hheader
  cases hmove with
  | stay => exact h.assign _
  | @enter o => exact h.enter o none
  | @inline o => exact h.inline o
  | branch => exact ((h.pop _).assign _).add rfl rfl fun hheader => absurd hheader (hbranch _ _)
  | @lastBranch c =>
      have hpush :
          Headed ((b.pop (b.lineFrames.size - 1)).push (b.nextBranch c b.lineFrames.size)) :=
        (h.pop _).add rfl rfl fun hheader => absurd hheader (hbranch _ _)
      exact (hpush.pop _).assign _
  | leave => exact (h.pop _).assign _
  | stray => exact h.assign 0

end Headed

/-- What holds behind `n` lines holds behind one more. -/
theorem Headed.stepAt {b : ScopeBuilder} {last n : Nat} (hbehind : Behind last n b) (h : Headed b)
    (tokens : List Token) : Headed (b.stepAt tokens n) := by
  obtain ⟨b₀, hsheds, hmove⟩ := exists_move hbehind tokens
  obtain ⟨h₀, hlines⟩ := h.of_sheds hsheds
  exact h₀.of_move (hlines ▸ hbehind.size_eq) hmove

end ScopeBuilder

theorem Document.headed_scopeState (doc : Document) : doc.scopeState.Headed := by
  have h := ScopeBuilder.run_induction
    (motive := fun n b => ScopeBuilder.Behind (doc.size - 1) n b ∧ b.Headed)
    (fun _ _ ts h => ⟨h.1.stepAt ts, h.2.stepAt h.1 ts⟩) (doc.lines.map Line.codeTokens) 0
    (ScopeBuilder.init doc.size)
    ⟨⟨ScopeBuilder.Coherent.start doc.size, rfl⟩, ScopeBuilder.Headed.init doc.size⟩
  exact h.2

/-! ### Trees -/

namespace ScopeTree

theorem hasHeader_of_openedAt? {tree : ScopeTree} {line : Int} {f : Frame}
    (h : tree.openedAt? line = some f) : f.HasHeader := by
  have hfound := Array.find?_some h
  simp only [Bool.and_eq_true, Bool.not_eq_true', Option.isNone_iff_eq_none] at hfound
  exact ⟨hfound.1.2, hfound.2⟩

variable {doc : Document} (hdoc : doc.IsNumbered) {f : Frame} {i : Nat}
include hdoc

/-- The frame at a header line is the one that holds the header. -/
theorem frameAt?_of_hasHeader (hf : (build doc).frame? i = some f) (hi : 0 < i)
    (hheader : f.HasHeader) :
    (build doc).frameAt? f.start = (build doc).frame? f.headerHome := by
  rw [build_eq_run hdoc] at hf ⊢
  obtain ⟨g, hg, e, rfl⟩ := ScopeBuilder.Coherent.finish_fields hf
  have hline := doc.headed_scopeState i g hg hi hheader
  rw [frameAt?, if_neg (by simp), Int.toNat_natCast,
    show (doc.scopeState.finish (doc.size - 1)).lineFrames = doc.scopeState.lineFrames from rfl,
    show ({ g with stop := e } : Frame).start = g.start from rfl, hline, Option.bind_some]
  rfl

/-- The frame that a line opens is held by the frame at the line, or it is that frame. -/
theorem frameAt?_of_openedAt? {l : Line} (hl : l ∈ doc.lines)
    (h : (build doc).openedAt? l.index = some f) :
    ∃ g, (build doc).frameAt? l.index = some g ∧ g.id = f.headerHome := by
  have hwf := wellFormed_of_isNumbered hdoc
  obtain ⟨hf, hpos, hstart, -⟩ := opening_of_openedAt? hdoc hl h
  obtain ⟨g, hg⟩ : ∃ g, (build doc).frame? f.headerHome = some g := by
    rw [Frame.headerHome]
    split
    · exact ⟨f, hf⟩
    · cases hparent : f.parent with
      | none => exact absurd ((hwf.parent_none_iff hf).1 hparent) (Nat.ne_of_gt hpos)
      | some p => exact (hwf.parent_lt hf hparent).2
  refine ⟨g, ?_, hwf.id_eq hg⟩
  rw [← hstart, frameAt?_of_hasHeader hdoc hf hpos (hasHeader_of_openedAt? h), hg]

end ScopeTree

/-! ### Lines that open nothing -/

/-- A line with these tokens belongs to the innermost block and opens and closes none. -/
def ScopeBuilder.Idle (tokens : List Token) : Prop :=
  ∀ (b : ScopeBuilder) (n : Nat), b.stepAt tokens n = b.assign b.top

/-- What comes later starts later. -/
theorem ScopeBuilder.start_ne_of_run {last n m : Nat} {b : ScopeBuilder} (hbehind : Behind last m b)
    (hnm : n < m) (hstart : ∀ (i : Nat) (f : Frame), b.frames[i]? = some f → 0 < i → f.start ≠ n)
    (xs : List (List Token)) {i : Nat} {f : Frame} (hf : (b.run m xs).frames[i]? = some f)
    (hi : 0 < i) : f.start ≠ n := by
  have hrun := run_induction (motive := fun m b => n < m ∧ Behind last m b ∧
      ∀ (i : Nat) (f : Frame), b.frames[i]? = some f → 0 < i → f.start ≠ n) ?_ xs m b
    ⟨hnm, hbehind, hstart⟩
  · exact hrun.2.2 i f hf hi
  · rintro m b ts ⟨hnm, hbehind, hstart⟩
    refine ⟨by omega, hbehind.stepAt ts, ?_⟩
    intro i f hf hi
    have hkeeps := keeps_stepAt hbehind ts
    rcases hkeeps.fresh hf with ⟨g, hg⟩ | hfresh
    · obtain ⟨e, he, -⟩ := hkeeps.frame hg
      obtain rfl := Option.some.inj (hf.symm.trans he)
      exact hstart i g hg hi
    · omega

namespace ScopeTree

variable {doc : Document} (hdoc : doc.IsNumbered) {l : Line} (hl : l ∈ doc.lines)
  (hidle : ScopeBuilder.Idle l.codeTokens)
include hdoc hl hidle

theorem start_ne_of_idle {f : Frame} {i : Nat} (hf : (build doc).frame? i = some f) (hi : 0 < i) :
    f.start ≠ l.index := by
  rw [build_eq_run hdoc] at hf
  obtain ⟨g, hg, e, rfl⟩ := ScopeBuilder.Coherent.finish_fields hf
  obtain ⟨before, after, hlines⟩ := List.append_of_mem hl
  have hindex : l.index = before.length := hdoc.index_eq (by rw [hlines]; simp)
  have hbehind := ScopeBuilder.run_induction (motive := ScopeBuilder.Behind (doc.size - 1))
    (fun _ _ ts h => h.stepAt ts) (before.map Line.codeTokens) 0 (ScopeBuilder.init doc.size)
    ⟨ScopeBuilder.Coherent.start doc.size, rfl⟩
  rw [Nat.zero_add, List.length_map, ← hindex] at hbehind
  rw [Document.scopeState, hlines, List.map_append, List.map_cons, ScopeBuilder.run_append,
    ScopeBuilder.run_cons, Nat.zero_add, List.length_map, ← hindex, hidle] at hg
  have hstart : g.start ≠ l.index :=
    ScopeBuilder.start_ne_of_run hbehind.assignTop (Nat.lt_succ_self _)
      (fun i f hf hi => Nat.ne_of_lt (hbehind.coherent.start_lt hf hi)) _ hg hi
  exact hstart

/-- The blocks around an idle line start before it. -/
theorem start_lt_of_idle {f : Frame} (hf : f ∈ (build doc).around l.index) :
    f.id = 0 ∨ f.start < l.index := by
  obtain ⟨i, hi⟩ := exists_frame_of_mem_around hf
  obtain rfl := (wellFormed_of_isNumbered hdoc).id_eq hi
  refine or_iff_not_imp_left.2 fun hne => ?_
  have hencloses := encloses_of_mem_around hdoc hf
  rw [Frame.encloses, Bool.and_eq_true, decide_eq_true_iff] at hencloses
  have := start_ne_of_idle hdoc hl hidle hi (Nat.pos_of_ne_zero hne)
  omega

theorem openedAt?_of_idle : (build doc).openedAt? l.index = none := by
  refine Option.eq_none_iff_forall_ne_some.2 fun f hf => ?_
  obtain ⟨hframe, hpos, hstart, -⟩ := opening_of_openedAt? hdoc hl hf
  exact start_ne_of_idle hdoc hl hidle hframe hpos hstart

end ScopeTree

end Polyloft
