import Polyloft.Proofs.Scope.Coherent
import Polyloft.Proofs.Scope.Program

/-!
# Polyloft.Proofs.Scope.Nesting

The scope tree of a well-nested program is the program's own nesting.

## Proof shape

While the builder is inside a block, its state is the state `b` before the block, with the block's
own frame `f` (still open), the frames `fs` and the line frames `os` found since behind it:
`b.inside f fs os`. When the block is closed the state is `b.extend`ed by what was found. Each
class of lines has one lemma that says what a line of it does to a state of that form. The
simulation is then an induction over the grammar: a run over items only extends the state
(`run_items`), a run over the rest of a chain or of a switch takes the state inside of it to the
state behind it (`run_branches`, `run_clauses`).
-/

namespace Polyloft

namespace ScopeBuilder

/-! ### States -/

/-- The state with further frames and line frames; the same blocks are open. -/
def extend (b : ScopeBuilder) (fs : List Frame) (os : List Nat) : ScopeBuilder :=
  { b with
    frames := b.frames ++ fs.toArray
    childIds := fs.foldl addChild b.childIds
    lineFrames := b.lineFrames ++ os.toArray }

/-- The state inside the block of `f`, where `fs` and `os` were found since it was opened. -/
def inside (b : ScopeBuilder) (f : Frame) (fs : List Frame) (os : List Nat) : ScopeBuilder :=
  { b.extend (f :: fs) os with pending := f.id :: b.pending }

variable {b : ScopeBuilder} {f g : Frame} {fs gs : List Frame} {os ps : List Nat}

theorem extend_nil : b.extend [] [] = b := by
  simp [extend]

theorem extend_extend : (b.extend fs os).extend gs ps = b.extend (fs ++ gs) (os ++ ps) := by
  simp [extend]

theorem inside_extend : (b.inside f fs os).extend gs ps = b.inside f (fs ++ gs) (os ++ ps) := by
  simp [extend, inside]

@[simp] theorem top_extend : (b.extend fs os).top = b.top := rfl

@[simp] theorem top_inside : (b.inside f fs os).top = f.id := rfl

@[simp] theorem size_extend : (b.extend fs os).frames.size = b.frames.size + fs.length := by
  simp [extend]

@[simp] theorem size_inside : (b.inside f fs os).frames.size = b.frames.size + 1 + fs.length := by
  simp [inside, extend]
  omega

theorem frame_inside (hid : f.id = b.frames.size) : (b.inside f fs os).frames[f.id]? = some f := by
  simp [inside, extend, hid]

theorem topConstruct_inside (hid : f.id = b.frames.size) :
    (b.inside f fs os).topConstruct = f.construct := by
  rw [topConstruct, top_inside, frame_inside hid]
  rfl

theorem modify_append_cons (frames : Array Frame) (f : Frame) (fs : List Frame)
    (g : Frame → Frame) :
    (frames ++ (f :: fs).toArray).modify frames.size g = frames ++ (g f :: fs).toArray := by
  apply Array.ext_getElem?
  intro i
  rw [Array.getElem?_modify]
  rcases Nat.lt_trichotomy i frames.size with hi | rfl | hi
  · rw [if_neg (Nat.ne_of_gt hi), Array.getElem?_append_left hi, Array.getElem?_append_left hi]
  · simp
  · rw [if_neg (Nat.ne_of_lt hi), Array.getElem?_append_right (Nat.le_of_lt hi),
      Array.getElem?_append_right (Nat.le_of_lt hi)]
    obtain ⟨k, hk⟩ : ∃ k, i - frames.size = k + 1 := ⟨i - frames.size - 1, by omega⟩
    simp [hk]

/-- Leaving a block puts its last line in place; what was found inside stays behind it. -/
theorem pop_inside (hid : f.id = b.frames.size) (n : Nat) :
    (b.inside f fs os).pop n = b.extend (f.closedAt n :: fs) os := by
  simp only [pop, setStop, top_inside, hid]
  simp only [inside, extend, modify_append_cons, List.tail_cons, Frame.closedAt]
  rfl

theorem assign_extend (id : Nat) : (b.extend fs os).assign id = b.extend fs (os ++ [id]) := by
  simp [assign, extend]

/-- Opening a block. The frame comes after all others, so it has the number of the new place. -/
theorem assign_push (id : Nat) : (b.assign id).push f = b.inside f [] [id] := by
  simp [assign, push, inside, extend]

theorem popClauses_inside (hid : f.id = b.frames.size) (hc : f.construct.isClause = false)
    (n : Nat) : popClauses n (b.inside f fs os).pending (b.inside f fs os) = b.inside f fs os := by
  rw [show (b.inside f fs os).pending = f.id :: b.pending from rfl, popClauses,
    topConstruct_inside hid, hc]
  rfl

/-- A terminator closes the innermost block, unless that is a clause. -/
theorem close_inside (hid : f.id = b.frames.size) (hc : f.construct.isClause = false) (n : Nat) :
    (b.inside f fs os).close n = b.extend (f.closedAt n :: fs) (os ++ [f.id]) := by
  rw [close, popClauses_inside hid hc]
  simp only [show (b.inside f fs os).pending.isEmpty = false from rfl, Bool.false_eq_true,
    if_false, pop_inside hid, top_inside, assign_extend]

/-- A terminator closes an open clause together with its switch. -/
theorem close_inside_clause (hid : f.id = b.frames.size) (hc : f.construct.isClause = false)
    (hg : g.id = (b.inside f fs os).frames.size) (hgc : g.construct.isClause = true) (n : Nat) :
    ((b.inside f fs os).inside g gs ps).close n =
      b.extend (f.closedAt n :: fs ++ g.closedAt n :: gs) (os ++ ps ++ [f.id]) := by
  have hpop : popClauses n ((b.inside f fs os).inside g gs ps).pending
      ((b.inside f fs os).inside g gs ps) =
        popClauses n (f.id :: b.pending) ((b.inside f fs os).extend (g.closedAt n :: gs) ps) := by
    rw [show ((b.inside f fs os).inside g gs ps).pending = g.id :: f.id :: b.pending from rfl,
      popClauses, topConstruct_inside hg, hgc, if_pos rfl, pop_inside hg]
  rw [close, hpop, inside_extend, show f.id :: b.pending =
    (b.inside f (fs ++ g.closedAt n :: gs) (os ++ ps)).pending from rfl, popClauses_inside hid hc]
  simp only [show (b.inside f (fs ++ g.closedAt n :: gs) (os ++ ps)).pending.isEmpty = false
    from rfl, Bool.false_eq_true, if_false, pop_inside hid, top_inside, assign_extend,
    List.cons_append]

end ScopeBuilder

/-! ### Classes of lines -/

theorem branchConstruct?_eq_none_of_not_mem {s : String} (h : s ∉ continuationWords) :
    branchConstruct? s = none := by
  unfold branchConstruct?
  split <;> first | rfl | exact absurd (by decide) h

theorem clauseConstruct?_eq_none_of_not_mem {s : String} (h : s ∉ continuationWords) :
    clauseConstruct? s = none := by
  unfold clauseConstruct?
  split <;> first | rfl | exact absurd (by decide) h

/-- A line whose first word behind the prefix is not `end` closes no block by itself. -/
theorem isTerminator_eq_false_of_leads {ts after : List Token} {word : Token}
    (h : ts.dropWhile Token.isDeclarationPrefix = word :: after) (hw : word.text ≠ "end") :
    isTerminator ts = false := by
  cases ts with
  | nil => rfl
  | cons t rest =>
      by_cases hend : t.isKeyword "end" = true
      · -- `end` is no modifier, so it would be the first word itself.
        simp only [Token.isKeyword, Bool.and_eq_true, beq_iff_eq] at hend
        have hmodifier : t.isDeclarationPrefix = false := by
          simp only [Token.isDeclarationPrefix, Token.isKeywordIn, hend]
          decide
        rw [List.dropWhile_cons_of_neg (by simp [hmodifier])] at h
        obtain ⟨rfl, -⟩ := List.cons.inj h
        exact absurd hend.2 hw
      · simp [isTerminator, hend]

theorem ne_nil_of_leads {ts after : List Token} {word : Token}
    (h : ts.dropWhile Token.isDeclarationPrefix = word :: after) : ts ≠ [] := by
  rintro rfl
  simp at h

namespace ScopeBuilder

variable {b : ScopeBuilder} {f g : Frame} {fs gs : List Frame} {os ps : List Nat}

/-! ### What a line does -/

theorem stepAt_blank (n : Nat) : b.stepAt [] n = b.extend [] [b.top] := by
  simp [stepAt, assign, extend]

theorem stepAt_eq_statement {ts : List Token} (hne : ts ≠ []) (hterm : isTerminator ts = false)
    (n : Nat) : b.stepAt ts n = b.statement ts n := by
  rw [stepAt, if_neg (by simpa using hne), hterm]
  rfl

theorem stepAt_ordinary {ts : List Token} (h : IsOrdinary ts) (n : Nat) :
    b.stepAt ts n = b.ordinary ts n := by
  rw [stepAt_eq_statement h.ne_nil h.not_terminator, statement]
  split
  · rfl
  · rename_i first rest hlead
    split
    · rename_i hkind
      have hmem : first.text ∉ continuationWords := by
        have := h.not_continuation first rest hlead
        simpa [Token.isKeywordIn, hkind] using this
      rw [branchConstruct?_eq_none_of_not_mem hmem, clauseConstruct?_eq_none_of_not_mem hmem]
    · rfl

theorem stepAt_plain (line : PlainLine) (n : Nat) :
    b.stepAt line.tokens n = b.extend [] [b.top] := by
  rw [stepAt_ordinary line.ordinary, ordinary, line.opens]
  simp [assign, extend]

theorem stepAt_inline (line : OpeningLine true) (n : Nat) :
    b.stepAt line.tokens n =
      b.extend [⟨b.frames.size, line.opening.construct, line.opening.name, n, some n, some b.top,
        none, true⟩] [b.frames.size] := by
  rw [stepAt_ordinary line.ordinary, ordinary, line.opens]
  simp [line.ends, addInline, assign, extend, newFrame, addChild]

/-- The frame that a header opens in a state. -/
theorem stepAt_header (line : OpeningLine false) (n : Nat) :
    b.stepAt line.tokens n = b.inside (b.newFrame line.opening n none) [] [b.top] := by
  rw [stepAt_ordinary line.ordinary, ordinary, line.opens]
  simp [line.ends, assign_push]

theorem stepAt_terminator (line : TerminatorLine) (n : Nat) :
    b.stepAt line.tokens n = b.close n := by
  have hne : line.tokens ≠ [] := by
    intro h
    have := line.closes
    rw [h] at this
    cases this
  rw [stepAt, if_neg (by simpa using hne), line.closes]
  rfl

theorem stepAt_branchLine {family : ChainFamily} {last : Bool} (line : BranchLine family last)
    (n : Nat) :
    b.stepAt line.tokens n =
      (b.branch? line.construct n last).getD (b.ordinary line.tokens n) := by
  have hword : line.word.text ≠ "end" := by
    intro h
    have := line.branches
    rw [h] at this
    cases this
  rw [stepAt_eq_statement (ne_nil_of_leads line.leads)
    (isTerminator_eq_false_of_leads line.leads hword), statement, line.leads]
  simp only [line.isKeyword, if_true, line.branches, line.ends]

theorem stepAt_clauseLine (line : ClauseLine) (n : Nat) :
    b.stepAt line.tokens n =
      ((b.endClause n).clause? line.construct n).getD ((b.endClause n).ordinary line.tokens n) := by
  have hclause := line.starts
  have hword : line.word.text ≠ "end" ∧ branchConstruct? line.word.text = none := by
    unfold clauseConstruct? at hclause
    split at hclause
    · rename_i h
      rw [h]
      decide
    · rename_i h
      rw [h]
      decide
    · cases hclause
  rw [stepAt_eq_statement (ne_nil_of_leads line.leads)
    (isTerminator_eq_false_of_leads line.leads hword.1), statement, line.leads]
  simp only [line.isKeyword, if_true, hword.2, line.starts]

theorem continues_of_has {family : ChainFamily} {c d : Construct} (hc : family.has c = true)
    (hd : family.has d = true) : c.continues d = true := by
  cases family <;> cases c <;> first | exact hd | cases hc

theorem not_clause_of_has {family : ChainFamily} {c : Construct} (h : family.has c = true) :
    c.isClause = false := by
  cases family <;> cases c <;> first | rfl | cases h

/-- The frame of a branch that follows the part of a chain with frame `f`. -/
def branchFrame (b : ScopeBuilder) (f : Frame) (fs : List Frame) (c : Construct) (n : Nat) :
    Frame :=
  ⟨b.frames.size + 1 + fs.length, c, none, n, none, some b.top, some f.chainHead, false⟩

/-- What `branch?` does inside a chain before it looks at whether the chain ends. -/
theorem branch?_inside {family : ChainFamily} {c : Construct} (hid : f.id = b.frames.size)
    (hf : family.has f.construct = true) (hc : family.has c = true) (n : Nat) (closes : Bool) :
    (b.inside f fs os).branch? c n closes =
      if closes then
        some (((b.extend (f.closedAt (n - 1) :: fs) os).push (b.branchFrame f fs c n)).close n)
      else
        some ((b.extend (f.closedAt (n - 1) :: fs) os).inside (b.branchFrame f fs c n) []
          [b.top]) := by
  have hcond : (!(b.inside f fs os).pending.isEmpty &&
      c.continues (b.inside f fs os).topConstruct) = true := by
    rw [topConstruct_inside hid, continues_of_has hc hf]
    rfl
  have hframe : (b.extend (f.closedAt (n - 1) :: fs) os).newFrame ⟨c, none⟩ n
      (some f.chainHead) = b.branchFrame f fs c n := by
    simp only [newFrame, branchFrame, size_extend, top_extend, List.length_cons, Frame.mk.injEq,
      and_true]
    omega
  rw [branch?, if_pos hcond]
  simp only [top_inside, frame_inside hid, Option.map_some, Option.getD_some, pop_inside hid,
    hframe, top_extend, assign_push]

theorem stepAt_branch {family : ChainFamily} (line : BranchLine family false)
    (hid : f.id = b.frames.size) (hf : family.has f.construct = true) (n : Nat) :
    (b.inside f fs os).stepAt line.tokens n =
      (b.extend (f.closedAt (n - 1) :: fs) os).inside (b.branchFrame f fs line.construct n) []
        [b.top] := by
  rw [stepAt_branchLine, branch?_inside hid hf line.belongs]
  rfl

theorem stepAt_lastBranch {family : ChainFamily} (line : BranchLine family true)
    (hid : f.id = b.frames.size) (hf : family.has f.construct = true) (n : Nat) :
    (b.inside f fs os).stepAt line.tokens n =
      b.extend (f.closedAt (n - 1) :: (fs ++ [(b.branchFrame f fs line.construct n).closedAt n]))
        (os ++ [b.frames.size + 1 + fs.length]) := by
  have hpush : (b.extend (f.closedAt (n - 1) :: fs) os).push (b.branchFrame f fs line.construct n)
      = (b.extend (f.closedAt (n - 1) :: fs) os).inside (b.branchFrame f fs line.construct n) []
        [] := by
    simp [push, inside, extend]
  have hid' : (b.branchFrame f fs line.construct n).id =
      (b.extend (f.closedAt (n - 1) :: fs) os).frames.size := by
    simp only [branchFrame, size_extend, List.length_cons]
    omega
  rw [stepAt_branchLine, branch?_inside hid hf line.belongs, if_pos rfl, Option.getD_some, hpush,
    close_inside hid' (not_clause_of_has line.belongs), extend_extend]
  rfl

/-- A clause line directly inside a switch opens a clause. -/
theorem stepAt_clause (line : ClauseLine) (h : b.topConstruct = .switchBody) (n : Nat) :
    b.stepAt line.tokens n =
      b.inside (b.newFrame ⟨line.construct, none⟩ n none) [] [b.top] := by
  have hend : b.endClause n = b := by
    rw [endClause, h]
    rfl
  rw [stepAt_clauseLine, hend, clause?, if_pos h, Option.getD_some, assign_push]

/-- A clause line inside another clause ends that one first. -/
theorem stepAt_nextClause (line : ClauseLine) (hid : g.id = b.frames.size)
    (hg : g.construct.isClause = true) (n : Nat)
    (h : (b.extend (g.closedAt (n - 1) :: gs) ps).topConstruct = .switchBody) :
    (b.inside g gs ps).stepAt line.tokens n =
      (b.extend (g.closedAt (n - 1) :: gs) ps).stepAt line.tokens n := by
  have hend : (b.inside g gs ps).endClause n = b.extend (g.closedAt (n - 1) :: gs) ps := by
    rw [endClause, topConstruct_inside hid, hg, if_pos rfl, pop_inside hid]
  have hend' : (b.extend (g.closedAt (n - 1) :: gs) ps).endClause n =
      b.extend (g.closedAt (n - 1) :: gs) ps := by
    rw [endClause, h]
    rfl
  rw [stepAt_clauseLine, stepAt_clauseLine, hend, hend']

end ScopeBuilder

/-! ### The simulation -/

mutual

theorem Items.length_frames : ∀ (p : Items) (n id parent : Nat),
    (p.frames n id parent).length = p.count
  | .nil, _, _, _ => rfl
  | .blank rest, n, id, parent => rest.length_frames (n + 1) id parent
  | .plain _ rest, n, id, parent => rest.length_frames (n + 1) id parent
  | .inline _ rest, n, id, parent => by
      rw [Items.frames, Items.count, List.length_cons, rest.length_frames, Nat.add_comm]
  | .block _ body _ rest, n, id, parent => by
      rw [Items.frames, Items.count]
      simp only [List.length_cons, List.length_append, body.length_frames, rest.length_frames]
      omega
  | .chain _ _ body branches rest, n, id, parent => by
      rw [Items.frames, Items.count]
      simp only [List.length_cons, List.length_append, body.length_frames,
        branches.length_frames, rest.length_frames]
      omega
  | .switch _ body clauses rest, n, id, parent => by
      rw [Items.frames, Items.count]
      simp only [List.length_cons, List.length_append, body.length_frames,
        clauses.length_frames, rest.length_frames]
      omega

theorem Branches.length_frames {family : ChainFamily} :
    ∀ (r : Branches family) (n id parent head : Nat),
      (r.frames n id parent head).length = r.count
  | .close _, _, _, _, _ => rfl
  | .last _, _, _, _, _ => rfl
  | .branch _ body rest, n, id, parent, head => by
      rw [Branches.frames, Branches.count]
      simp only [List.length_cons, List.length_append, body.length_frames, rest.length_frames]
      omega

theorem Clauses.length_frames : ∀ (r : Clauses) (n id parent : Nat),
    (r.frames n id parent).length = r.count
  | .close _, _, _, _ => rfl
  | .clause _ body rest, n, id, parent => by
      rw [Clauses.frames, Clauses.count]
      simp only [List.length_cons, List.length_append, body.length_frames, rest.length_frames]
      omega

end

namespace ScopeBuilder

mutual

/-- A run over items leaves the open blocks alone and adds the frames of the items. -/
theorem run_items : ∀ (p : Items) (b : ScopeBuilder) (n : Nat),
    b.run n p.lines =
      b.extend (p.frames n b.frames.size b.top) (p.owners b.frames.size b.top)
  | .nil, b, n => by
      rw [Items.lines, Items.frames, Items.owners, run_nil, extend_nil]
  | .blank rest, b, n => by
      rw [Items.lines, run_cons, stepAt_blank, run_items rest, extend_extend]
      simp [Items.frames, Items.owners]
  | .plain line rest, b, n => by
      rw [Items.lines, run_cons, stepAt_plain, run_items rest, extend_extend]
      simp [Items.frames, Items.owners]
  | .inline line rest, b, n => by
      rw [Items.lines, run_cons, stepAt_inline, run_items rest, extend_extend]
      simp [Items.frames, Items.owners]
  | .block header body close rest, b, n => by
      have hid : (b.newFrame header.opening n none).id = b.frames.size := rfl
      have hc : (b.newFrame header.opening n none).construct.isClause = false :=
        (opening?_construct header.opens).2
      rw [Items.lines, run_cons, stepAt_header, run_append, run_items body, inside_extend,
        run_cons, stepAt_terminator, close_inside hid hc, run_items rest, extend_extend]
      simp [Items.frames, Items.owners, Items.length_frames, newFrame, Frame.closedAt,
        Nat.add_assoc, Nat.add_comm 1]
  | .chain family header body branches rest, b, n => by
      have hid : (b.newFrame header.opening n none).id = b.frames.size := rfl
      have hf : family.has (b.newFrame header.opening n none).construct = true := by
        rw [show (b.newFrame header.opening n none).construct = header.opening.construct from rfl,
          header.starts]
        cases family <;> rfl
      rw [Items.lines, run_cons, stepAt_header, run_append, run_items body, inside_extend,
        run_append, run_branches branches _ _ _ _ _ hid hf, run_items rest, extend_extend]
      simp [Items.frames, Items.owners, Items.length_frames, Branches.length_frames, newFrame,
        Frame.closedAt, Frame.chainHead, Nat.add_assoc, Nat.add_comm 1]
  | .switch header body (.close line) rest, b, n => by
      have hid : (b.newFrame header.opening n none).id = b.frames.size := rfl
      have hc : (b.newFrame header.opening n none).construct.isClause = false :=
        (opening?_construct header.opens).2
      rw [Items.lines, run_cons, stepAt_header, run_append, run_items body, inside_extend,
        run_append, Clauses.lines, run_cons, run_nil, stepAt_terminator, close_inside hid hc,
        run_items rest, extend_extend]
      simp [Items.frames, Items.owners, Clauses.lines, Clauses.frames, Clauses.owners,
        Clauses.count, Items.length_frames, newFrame, Frame.closedAt, Nat.add_assoc,
        Nat.add_comm 1]
  | .switch header body (.clause line inner clauses) rest, b, n => by
      -- The first clause opens inside the switch; each further one closes the clause before it.
      have hid : (b.newFrame header.opening n none).id = b.frames.size := rfl
      have hs : (b.newFrame header.opening n none).construct = .switchBody := header.starts
      have hg := isClause_of_clauseConstruct? line.starts
      rw [Items.lines, run_cons, stepAt_header, run_append, run_items body, inside_extend,
        run_append, Clauses.lines, run_cons,
        stepAt_clause line ((topConstruct_inside hid).trans hs), run_append, run_items inner,
        inside_extend, run_clauses clauses _ _ _ _ _ _ _ _ hid hs rfl hg, run_items rest,
        extend_extend]
      simp [Items.frames, Items.owners, Clauses.lines, Clauses.frames, Clauses.owners,
        Clauses.count, Items.length_frames, Clauses.length_frames, newFrame, Frame.closedAt,
        Nat.add_assoc, Nat.add_comm, Nat.add_left_comm]

/-- A run over the rest of a chain closes its open part and adds the frames of the rest. -/
theorem run_branches {family : ChainFamily} : ∀ (r : Branches family) (b : ScopeBuilder)
    (f : Frame) (fs : List Frame) (os : List Nat) (n : Nat), f.id = b.frames.size →
    family.has f.construct = true →
    (b.inside f fs os).run n r.lines =
      b.extend
        (f.closedAt (r.stopBefore n) ::
          (fs ++ r.frames n (b.frames.size + 1 + fs.length) b.top f.chainHead))
        (os ++ r.owners (b.frames.size + 1 + fs.length) b.top f.id)
  | .close line, b, f, fs, os, n, hid, hf => by
      rw [Branches.lines, run_cons, run_nil, stepAt_terminator,
        close_inside hid (not_clause_of_has hf)]
      simp [Branches.frames, Branches.owners, Branches.stopBefore]
  | .last line, b, f, fs, os, n, hid, hf => by
      rw [Branches.lines, run_cons, run_nil, stepAt_lastBranch line hid hf]
      simp [Branches.frames, Branches.owners, Branches.stopBefore, branchFrame, Frame.closedAt]
  | .branch line body rest, b, f, fs, os, n, hid, hf => by
      have hid' : (b.branchFrame f fs line.construct n).id =
          (b.extend (f.closedAt (n - 1) :: fs) os).frames.size := by
        simp only [branchFrame, size_extend, List.length_cons]
        omega
      rw [Branches.lines, run_cons, stepAt_branch line hid hf, run_append, run_items body,
        inside_extend, run_branches rest _ _ _ _ _ hid' line.belongs, extend_extend]
      simp [Branches.frames, Branches.owners, Branches.stopBefore, branchFrame, Frame.closedAt,
        Frame.chainHead, Items.length_frames, Nat.add_assoc, Nat.add_comm 1]

/-- A run over the rest of a switch, from inside a clause, closes the clause and the switch. -/
theorem run_clauses : ∀ (r : Clauses) (b : ScopeBuilder) (s : Frame) (fs : List Frame)
    (os : List Nat) (g : Frame) (gs : List Frame) (ps : List Nat) (n : Nat),
    s.id = b.frames.size → s.construct = .switchBody →
    g.id = (b.inside s fs os).frames.size → g.construct.isClause = true →
    ((b.inside s fs os).inside g gs ps).run n r.lines =
      b.extend
        (s.closedAt (n + r.lines.length - 1) ::
          (fs ++ g.closedAt (r.stopBefore n) ::
            (gs ++ r.frames n (b.frames.size + 1 + fs.length + 1 + gs.length) s.id)))
        (os ++ (ps ++ r.owners (b.frames.size + 1 + fs.length + 1 + gs.length) s.id))
  | .close line, b, s, fs, os, g, gs, ps, n, hid, hs, hgid, hg => by
      rw [Clauses.lines, run_cons, run_nil, stepAt_terminator,
        close_inside_clause hid (by rw [hs]; rfl) hgid hg]
      simp [Clauses.frames, Clauses.owners, Clauses.stopBefore]
  | .clause line body rest, b, s, fs, os, g, gs, ps, n, hid, hs, hgid, hg => by
      have htop : ((b.inside s fs os).extend (g.closedAt (n - 1) :: gs) ps).topConstruct =
          .switchBody := by
        rw [inside_extend, topConstruct_inside hid, hs]
      have hg' := isClause_of_clauseConstruct? line.starts
      rw [Clauses.lines, run_cons, stepAt_nextClause line hgid hg n htop,
        stepAt_clause line htop, run_append, run_items body, inside_extend, inside_extend,
        run_clauses rest _ _ _ _ _ _ _ _ hid hs rfl hg']
      simp [Clauses.frames, Clauses.owners, Clauses.stopBefore, newFrame, Frame.closedAt,
        Items.length_frames, Nat.add_assoc, Nat.add_comm, Nat.add_left_comm]

end

end ScopeBuilder

/-! ### The tree of a program -/

/-- Building the scope tree of a document whose lines are those of a well-nested program recovers
the nesting of the program: the same frames in the same order, with their lines, parents and chain
heads, the same frame for each line, no line that closes nothing and no block left open. -/
theorem ScopeTree.build_eq_tree (p : Items) (doc : Document) (hnum : doc.IsNumbered)
    (hlines : doc.lines.map Line.codeTokens = p.lines) : ScopeTree.build doc = p.tree := by
  have hsize : doc.size = p.height := by
    rw [Document.size, ← List.length_map (f := Line.codeTokens), hlines]
  have hstate : doc.scopeState = (ScopeBuilder.init p.height).extend (p.frames 0 1 0)
      (p.owners 1 0) := by
    rw [Document.scopeState, hlines, ScopeBuilder.run_items p, hsize]
    rfl
  have hchildren := doc.behind_scopeState.coherent.childIds_eq
  rw [hstate] at hchildren
  -- The run starts and ends outside of every block, so finishing has nothing to close.
  rw [build_eq_run hnum, hstate, hsize]
  simpa [ScopeBuilder.finish, ScopeBuilder.extend, ScopeBuilder.init, ScopeBuilder.finishFrames,
    Items.tree] using hchildren

/-- A chain whose first part holds a switch, and whose last branch stands on the line of its
`end`. -/
def nestedChain : Items :=
  let word (text : String) (line column : Nat) : Token := ⟨.keyword, text, line, column, true⟩
  let name (text : String) (line column : Nat) : Token := ⟨.identifier, text, line, column, true⟩
  .chain .ifChain
    { tokens := [word "if" 0 0, name "a" 0 3], opening := ⟨.ifBranch, none⟩
      ordinary := ⟨by decide, by decide, by rintro _ _ ⟨⟩; decide⟩
      opens := by decide, ends := by decide, starts := rfl }
    (.switch
      { tokens := [word "switch" 1 1, name "b" 1 8], opening := ⟨.switchBody, none⟩
        ordinary := ⟨by decide, by decide, by rintro _ _ ⟨⟩; decide⟩
        opens := by decide, ends := by decide, starts := rfl }
      .nil
      (.clause
        { tokens := [word "case" 2 1, name "c" 2 6], construct := .caseClause
          word := word "case" 2 1, after := [name "c" 2 6]
          leads := by decide, isKeyword := rfl, starts := by decide }
        (.blank .nil)
        (.close ⟨[word "end" 4 1], by decide⟩))
      .nil)
    (.last
      { tokens := [word "else" 5 0, name "d" 5 5, word "end" 5 7], construct := .elseBranch
        word := word "else" 5 0, after := [name "d" 5 5, word "end" 5 7]
        leads := by decide, isKeyword := rfl, branches := by decide, belongs := rfl
        ends := by decide })
    .nil

theorem build_nestedChain :
    ScopeTree.build
      (Document.ofText "if a\n switch b\n case c\n\n end\nelse d end".toList none) =
        nestedChain.tree :=
  ScopeTree.build_eq_tree nestedChain _ (Document.isNumbered_ofText _ _) (by decide +kernel)

end Polyloft
