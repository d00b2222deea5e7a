import Polyloft.Proofs.BlankLine.Document
import Polyloft.Proofs.Scope.WellFormed

/-!
# Polyloft.Proofs.BlankLine.Scope

The scope tree of a document with one more, empty line. The pass over the longer document opens the
same frames in the same order, on the lines that the old ones become. Only the last lines of frames
do not simply move: a branch ends on the line before the next one, which may be the new line. So
frames are compared by their outlines, which leave the last line out; nothing that is asked of the
tree looks at it. The lists of children are not compared: in both trees they follow from the frames.

## Proof shape

`ScopeBuilder.Moved` relates the two passes. Every operation of the pass keeps it, so a line does
(`Moved.stepAt`) and a run of lines does (`Moved.run`). The empty line changes neither the frames
nor what is open. The numbers of the frames that hold the lines are kept in a relation `T` of their
own, because before the new line they are the same and behind it one is in between.
-/

namespace Polyloft

/-! ### Outlines -/

/-- A frame without its last line, its first line renumbered; the module starts at the top. -/
def Frame.outline (g : Nat → Nat) (f : Frame) : Frame :=
  { f with start := if f.parent.isSome then g f.start else 0, stop := none }

namespace Frame

variable (g : Nat → Nat) (f : Frame)

/-- The outline does not show the last line. -/
theorem outline_stop (stop : Option Nat) : ({ f with stop } : Frame).outline g = f.outline g := rfl

/-- What the outline shows is the same for frames of the same outline. -/
theorem congr_outline {α : Type} {g g' : Nat → Nat} {f f' : Frame}
    (h : f'.outline g' = f.outline g) (p : Frame → α)
    (hp : ∀ g f, p (Frame.outline g f) = p f) : p f' = p f := by
  rw [← hp g' f', h, hp]

/-- The outline of every frame but the module shows where it starts. -/
theorem start_eq_of_outline {g g' : Nat → Nat} {f f' : Frame}
    (h : f'.outline g' = f.outline g) (hparent : f.parent.isSome = true) :
    g' f'.start = g f.start := by
  have hstart := congrArg Frame.start h
  have hparent' := congr_outline h Frame.parent fun _ _ => rfl
  simpa only [outline, hparent', if_pos hparent] using hstart

/-- Frames that are looked up and have the same outline: there are both or none. -/
theorem cases_outline {g g' : Nat → Nat} {o o' : Option Frame}
    (h : o'.map (outline g') = o.map (outline g)) :
    o = none ∧ o' = none ∨ ∃ f f', o = some f ∧ o' = some f' ∧ f'.outline g' = f.outline g := by
  cases o with
  | none => exact .inl ⟨rfl, Option.map_eq_none_iff.1 h⟩
  | some f =>
      obtain ⟨f', rfl, hf⟩ := Option.map_eq_some_iff.1 h
      exact .inr ⟨f, f', rfl, rfl, hf⟩

end Frame

/-- Two arrays of frames have the same outlines once the lines of the first are moved. -/
def SameFrames (k : Nat) (frames frames' : Array Frame) : Prop :=
  frames'.map (Frame.outline id) = frames.map (Frame.outline (movedLine k))

namespace SameFrames

variable {k : Nat} {frames frames' : Array Frame}

theorem getElem? (h : SameFrames k frames frames') (i : Nat) :
    (frames'[i]?).map (Frame.outline id) = (frames[i]?).map (Frame.outline (movedLine k)) := by
  rw [← Array.getElem?_map, ← Array.getElem?_map, h]

/-- What the outline shows is the same for both. -/
theorem map_getElem? {α : Type} (h : SameFrames k frames frames') (i : Nat) (p : Frame → α)
    (hp : ∀ g f, p (Frame.outline g f) = p f) : (frames'[i]?).map p = (frames[i]?).map p := by
  have hmap := congrArg (Option.map p) (h.getElem? i)
  simpa only [Option.map_map, Function.comp_def, hp] using hmap

theorem size_eq (h : SameFrames k frames frames') : frames'.size = frames.size := by
  simpa using congrArg Array.size h

theorem push (h : SameFrames k frames frames') {f f' : Frame}
    (hf : f'.outline id = f.outline (movedLine k)) :
    SameFrames k (frames.push f) (frames'.push f') := by
  rw [SameFrames, Array.map_push, Array.map_push, h, hf]

theorem map_outline_modify (frames : Array Frame) (i : Nat) (stop : Option Nat) (g : Nat → Nat) :
    (frames.modify i fun f => { f with stop }).map (Frame.outline g) =
      frames.map (Frame.outline g) := by
  refine Array.ext (by simp) ?_
  intro j hj hj'
  rw [Array.getElem_map, Array.getElem_map, Array.getElem_modify]
  split
  · exact Frame.outline_stop g _ stop
  · rfl

/-- Setting last lines changes no outline. -/
theorem modify (h : SameFrames k frames frames') (i : Nat) (stop stop' : Option Nat) :
    SameFrames k (frames.modify i fun f => { f with stop })
      (frames'.modify i fun f => { f with stop := stop' }) := by
  rw [SameFrames, map_outline_modify, map_outline_modify, h]

end SameFrames

/-! ### The pass -/

namespace ScopeBuilder

/-- The two passes are at lines that correspond; `T` relates the frames they gave to the lines so
far. -/
structure Moved (k : Nat) (T : Array Nat → Array Nat → Prop) (b b' : ScopeBuilder) : Prop where
  frames : SameFrames k b.frames b'.frames
  pending : b'.pending = b.pending
  stray : b'.stray = b.stray.map (movedLine k)
  lineFrames : T b.lineFrames b'.lineFrames

namespace Moved

variable {k : Nat} {T : Array Nat → Array Nat → Prop} {b b' : ScopeBuilder}

theorem top_eq (h : Moved k T b b') : b'.top = b.top := by
  rw [top, top, h.pending]

theorem topConstruct_eq (h : Moved k T b b') : b'.topConstruct = b.topConstruct := by
  rw [topConstruct, topConstruct, h.top_eq,
    h.frames.map_getElem? b.top Frame.construct fun _ _ => rfl]

theorem pop (h : Moved k T b b') (n n' : Nat) : Moved k T (b.pop n) (b'.pop n') where
  frames := by
    rw [ScopeBuilder.pop, ScopeBuilder.pop, h.top_eq]
    exact h.frames.modify b.top (some n) (some n')
  pending := congrArg List.tail h.pending
  stray := h.stray
  lineFrames := h.lineFrames

variable (hT : ∀ l l' x, T l l' → T (l.push x) (l'.push x))
include hT

theorem assign (h : Moved k T b b') (id : Nat) : Moved k T (b.assign id) (b'.assign id) where
  frames := h.frames
  pending := h.pending
  stray := h.stray
  lineFrames := hT _ _ id h.lineFrames

omit hT

theorem outline_newFrame (h : Moved k T b b') (o : Opening) (n : Nat) (head : Option Nat) :
    (b'.newFrame o (movedLine k n) head).outline id =
      (b.newFrame o n head).outline (movedLine k) := by
  simp [newFrame, Frame.outline, h.top_eq, h.frames.size_eq]

theorem push (h : Moved k T b b') {f f' : Frame} (hf : f'.outline id = f.outline (movedLine k)) :
    Moved k T (b.push f) (b'.push f') where
  frames := h.frames.push hf
  pending := by
    have hid : f'.id = f.id := Frame.congr_outline hf Frame.id fun _ _ => rfl
    show f'.id :: b'.pending = f.id :: b.pending
    rw [hid, h.pending]
  stray := h.stray
  lineFrames := h.lineFrames

theorem addInline (h : Moved k T b b') {f f' : Frame}
    (hf : f'.outline id = f.outline (movedLine k)) :
    Moved k T (b.addInline f) (b'.addInline f') where
  frames := by
    refine h.frames.push ?_
    have hinline := congrArg (fun f : Frame => { f with inline := true }) hf
    simpa only [Frame.outline] using hinline
  pending := h.pending
  stray := h.stray
  lineFrames := h.lineFrames

theorem popClauses (ids : List Nat) (h : Moved k T b b') (n n' : Nat) :
    Moved k T (ScopeBuilder.popClauses n ids b) (ScopeBuilder.popClauses n' ids b') := by
  induction ids generalizing b b' with
  | nil => exact h
  | cons i ids ih =>
      rw [ScopeBuilder.popClauses, ScopeBuilder.popClauses, h.topConstruct_eq]
      split
      · exact ih (h.pop n n')
      · exact h

include hT

theorem close (h : Moved k T b b') (n : Nat) :
    Moved k T (b.close n) (b'.close (movedLine k n)) := by
  rw [ScopeBuilder.close, ScopeBuilder.close, h.pending]
  have hpopped := h.popClauses b.pending n (movedLine k n)
  dsimp only
  rw [hpopped.pending]
  split
  · -- Nothing is open but the module, so the line is a stray one.
    have hassigned := hpopped.assign hT 0
    exact { hassigned with
      stray := by
        show _ ++ [movedLine k n] = (_ ++ [n]).map (movedLine k)
        rw [List.map_append, hpopped.stray]
        rfl }
  · rw [hpopped.top_eq]
    exact (hpopped.pop n (movedLine k n)).assign hT _

theorem branch? (h : Moved k T b b') (c : Construct) (n : Nat) (closes : Bool) :
    Option.Rel (Moved k T) (b.branch? c n closes) (b'.branch? c (movedLine k n) closes) := by
  rw [ScopeBuilder.branch?, ScopeBuilder.branch?, h.pending, h.topConstruct_eq]
  split
  · -- The branch before ends on the line before, and the new branch continues its chain.
    have hhead : (b'.frames[b'.top]?.map Frame.chainHead).getD b'.top =
        (b.frames[b.top]?.map Frame.chainHead).getD b.top := by
      rw [h.top_eq, h.frames.map_getElem? b.top Frame.chainHead fun _ _ => rfl]
    have hpop := h.pop (n - 1) (movedLine k n - 1)
    dsimp only
    rw [hhead]
    have hnew := hpop.outline_newFrame ⟨c, none⟩ n
      (some ((b.frames[b.top]?.map Frame.chainHead).getD b.top))
    split
    · exact .some ((hpop.push hnew).close hT n)
    · rw [hpop.top_eq]
      exact .some ((hpop.assign hT _).push hnew)
  · exact .none

omit hT in
theorem endClause (h : Moved k T b b') (n : Nat) :
    Moved k T (b.endClause n) (b'.endClause (movedLine k n)) := by
  rw [ScopeBuilder.endClause, ScopeBuilder.endClause, h.topConstruct_eq]
  split
  · exact h.pop _ _
  · exact h

theorem clause? (h : Moved k T b b') (c : Construct) (n : Nat) :
    Option.Rel (Moved k T) (b.clause? c n) (b'.clause? c (movedLine k n)) := by
  rw [ScopeBuilder.clause?, ScopeBuilder.clause?, h.topConstruct_eq]
  split
  · rw [h.top_eq]
    exact .some ((h.assign hT _).push (h.outline_newFrame _ n _))
  · exact .none

theorem ordinary (h : Moved k T b b') (tokens : List Token) (n : Nat) :
    Moved k T (b.ordinary tokens n)
      (b'.ordinary (tokens.map (Token.moved k)) (movedLine k n)) := by
  rw [ScopeBuilder.ordinary, ScopeBuilder.ordinary, opening?_moved]
  cases opening? tokens with
  | none =>
      dsimp only
      rw [h.top_eq]
      exact h.assign hT _
  | some o =>
      dsimp only
      rw [← List.map_tail, hasEnd_moved]
      have hnew := h.outline_newFrame o n none
      split
      · -- The block ends on its line; the line belongs to it and not to the frame around.
        have hid : (b'.newFrame o (movedLine k n) none).id = (b.newFrame o n none).id :=
          Frame.congr_outline hnew Frame.id fun _ _ => rfl
        rw [hid]
        exact (h.addInline hnew).assign hT _
      · rw [h.top_eq]
        exact (h.assign hT _).push hnew

omit hT in
theorem getD {o o' : Option ScopeBuilder} (ho : Option.Rel (Moved k T) o o') (h : Moved k T b b') :
    Moved k T (o.getD b) (o'.getD b') := by
  cases ho with
  | none => exact h
  | some ho => exact ho

theorem statement (h : Moved k T b b') (tokens : List Token) (n : Nat) :
    Moved k T (b.statement tokens n)
      (b'.statement (tokens.map (Token.moved k)) (movedLine k n)) := by
  have hordinary := h.ordinary hT tokens n
  rw [ScopeBuilder.statement, ScopeBuilder.statement, dropWhile_isDeclarationPrefix_moved]
  cases tokens.dropWhile Token.isDeclarationPrefix with
  | nil => exact hordinary
  | cons first rest =>
      simp only [List.map_cons, Token.kind_moved, Token.text_moved, hasEnd_moved]
      split
      · split
        · exact getD (h.branch? hT _ n _) hordinary
        · split
          · exact getD ((h.endClause n).clause? hT _ n) ((h.endClause n).ordinary hT tokens n)
          · exact hordinary
      · exact hordinary

/-- One line keeps the two passes together. -/
theorem stepAt (h : Moved k T b b') (tokens : List Token) (n : Nat) :
    Moved k T (b.stepAt tokens n) (b'.stepAt (tokens.map (Token.moved k)) (movedLine k n)) := by
  rw [ScopeBuilder.stepAt, ScopeBuilder.stepAt, List.isEmpty_map, isTerminator_moved]
  split
  · rw [h.top_eq]
    exact h.assign hT _
  · split
    · exact h.close hT n
    · exact h.statement hT tokens n

/-- Lines one after the other keep the two passes together. -/
theorem run (h : Moved k T b b') (xs : List (List Token)) (n n' : Nat)
    (hn : ∀ i < xs.length, n' + i = movedLine k (n + i)) :
    Moved k T (b.run n xs) (b'.run n' (xs.map (List.map (Token.moved k)))) := by
  induction xs generalizing b b' n n' with
  | nil => exact h
  | cons ts rest ih =>
      have hfirst : n' = movedLine k n := hn 0 (by simp)
      rw [List.map_cons, run_cons, run_cons, hfirst]
      refine ih (h.stepAt hT ts n) (n + 1) (movedLine k n + 1) ?_
      intro i hi
      have hnext := hn (i + 1) (by simpa using hi)
      rw [← hfirst, Nat.add_assoc, Nat.add_assoc, Nat.add_comm 1 i]
      exact hnext

end Moved

/-- Finishing the two passes. -/
theorem sameFrames_finishFrames {k : Nat} (last last' : Nat) (ids : List Nat)
    {frames frames' : Array Frame} (h : SameFrames k frames frames') (unclosed : List Nat) :
    SameFrames k (finishFrames last ids (frames, unclosed)).1
        (finishFrames last' ids (frames', unclosed)).1 ∧
      (finishFrames last' ids (frames', unclosed)).2 =
        (finishFrames last ids (frames, unclosed)).2 := by
  induction ids generalizing frames frames' unclosed with
  | nil => exact ⟨h, rfl⟩
  | cons i ids ih =>
      rw [finishFrames, finishFrames]
      rcases Frame.cases_outline (h.getElem? i) with ⟨hf, hf'⟩ | ⟨f, f', hf, hf', hsame⟩
      · rw [hf, hf']
        exact ih h unclosed
      · have himplicit := Frame.congr_outline hsame Frame.isImplicit fun _ _ => rfl
        have hhead := Frame.congr_outline hsame Frame.chainHead fun _ _ => rfl
        rw [hf, hf']
        dsimp only
        rw [himplicit, hhead]
        split
        · exact ih h unclosed
        · -- The two documents end on different lines, but the outline does not show it.
          exact ih ((h.modify i (some last) (some last')).modify f.chainHead (some last)
            (some last')) _

end ScopeBuilder

/-! ### The tree -/

/-- The second tree is that of a document with one more, empty line. -/
structure ScopeTree.Moved (k : Nat) (tree tree' : ScopeTree) : Prop where
  frames : SameFrames k tree.frames tree'.frames
  lineFrames : ∀ n, tree'.lineFrames[movedLine k n]? = tree.lineFrames[n]?
  stray : tree'.stray = tree.stray.map (movedLine k)
  unclosed : tree'.unclosed = tree.unclosed
  children : tree.ListsChildren
  children' : tree'.ListsChildren

theorem ScopeBuilder.moved_init (k count count' : Nat) :
    Moved k (fun l l' => l' = l) (init count) (init count') where
  frames := by
    simp [SameFrames, init, Frame.outline]
  pending := rfl
  stray := rfl
  lineFrames := rfl

theorem ScopeBuilder.Moved.finish {k : Nat} {T : Array Nat → Array Nat → Prop}
    {b b' : ScopeBuilder} (h : Moved k T b b') (last last' : Nat)
    (hlines : ∀ n, b'.lineFrames[movedLine k n]? = b.lineFrames[n]?)
    (hchildren : (b.finish last).ListsChildren) (hchildren' : (b'.finish last').ListsChildren) :
    ScopeTree.Moved k (b.finish last) (b'.finish last') := by
  have hfinish : SameFrames k (b.finish last).frames (b'.finish last').frames ∧
      (b'.finish last').unclosed = (b.finish last).unclosed := by
    rw [ScopeBuilder.finish, ScopeBuilder.finish, h.pending]
    exact sameFrames_finishFrames last last' b.pending.reverse h.frames []
  exact ⟨hfinish.1, hlines, h.stray, hfinish.2, hchildren, hchildren'⟩

/-- The frames of the lines, where the second list has one more at place `k`. -/
def HasOneMore (k : Nat) (l l' : Array Nat) : Prop :=
  ∃ before x after, before.length = k ∧ l.toList = before ++ after ∧
    l'.toList = before ++ x :: after

theorem HasOneMore.push {k : Nat} (l l' : Array Nat) (y : Nat) (h : HasOneMore k l l') :
    HasOneMore k (l.push y) (l'.push y) := by
  obtain ⟨before, x, after, hlength, hl, hl'⟩ := h
  refine ⟨before, x, after ++ [y], hlength, ?_, ?_⟩
  · rw [Array.toList_push, hl, List.append_assoc]
  · rw [Array.toList_push, hl', List.append_assoc]
    rfl

/-- The lines keep their frames. -/
theorem HasOneMore.getElem? {k : Nat} {l l' : Array Nat} (h : HasOneMore k l l') (n : Nat) :
    l'[movedLine k n]? = l[n]? := by
  obtain ⟨before, x, after, rfl, hl, hl'⟩ := h
  rw [← Array.getElem?_toList, ← Array.getElem?_toList, hl, hl']
  by_cases hn : n < before.length
  · rw [movedLine_of_lt hn, List.getElem?_append_left hn, List.getElem?_append_left hn]
  · have hle : before.length ≤ n := Nat.not_lt.1 hn
    rw [movedLine_of_le hle, List.getElem?_append_right hle,
      List.getElem?_append_right (Nat.le_succ_of_le hle), Nat.succ_sub hle,
      List.getElem?_cons_succ]

/-- The new line belongs to the frame that is open there, and nothing else changes. -/
theorem ScopeBuilder.Moved.emptyLine {k : Nat} {b b' : ScopeBuilder}
    (h : Moved k (fun l l' => l' = l) b b') (hsize : b.lineFrames.size = k) :
    Moved k (HasOneMore k) b (b'.stepAt [] k) :=
  { h with
    lineFrames := by
      refine ⟨b.lineFrames.toList, b'.top, [], ?_, ?_, ?_⟩
      · rw [Array.length_toList, hsize]
      · rw [List.append_nil]
      · rw [← h.lineFrames]
        exact Array.toList_push }

/-- The tree of a document with one more, empty line. -/
theorem ScopeTree.moved_build {k : Nat} {doc doc' : Document} (hdoc : doc.IsNumbered)
    (hdoc' : doc'.IsNumbered) (h : Document.Spaced k doc doc') :
    Moved k (build doc) (build doc') := by
  obtain ⟨before, after, rfl, htokens, htokens'⟩ := h.exists_map_codeTokens
  have hbuild := build_eq_run hdoc
  have hbuild' := build_eq_run hdoc'
  rw [Document.scopeState, htokens, ScopeBuilder.run_append, Nat.zero_add] at hbuild
  rw [Document.scopeState, htokens', ScopeBuilder.run_append, ScopeBuilder.run_cons,
    List.length_map, Nat.zero_add] at hbuild'
  rw [hbuild, hbuild']
  -- Before the new line the passes are the same, but for the last line of the module.
  have hbefore := (ScopeBuilder.moved_init before.length doc.size doc'.size).run
    (by rintro l _ x rfl; rfl) before 0 0 (by
      intro i hi
      rw [Nat.zero_add, movedLine_of_lt hi])
  have hsize : ((ScopeBuilder.init doc.size).run 0 before).lineFrames.size = before.length := by
    have hbehind := ScopeBuilder.run_induction
      (motive := ScopeBuilder.Behind (doc.size - 1)) (fun _ _ ts h => h.stepAt ts) before 0
      (ScopeBuilder.init doc.size) ⟨ScopeBuilder.Coherent.start doc.size, rfl⟩
    rw [hbehind.size_eq, Nat.zero_add]
  -- Behind it the second pass is one line ahead.
  have hafter := (hbefore.emptyLine hsize).run HasOneMore.push after before.length
    (before.length + 1) (by
      intro i _
      rw [movedLine_of_le (Nat.le_add_right _ i), Nat.add_right_comm])
  exact hafter.finish _ _ (fun n => hafter.lineFrames.getElem? n)
    (hbuild ▸ (wellFormed_of_isNumbered hdoc).listsChildren)
    (hbuild' ▸ (wellFormed_of_isNumbered hdoc').listsChildren)

/-! ### Questions about the tree -/

/-- Two lists of frames have the same outlines once the lines of the first are moved. -/
def SameOutlines (k : Nat) (fs fs' : List Frame) : Prop :=
  fs'.map (Frame.outline id) = fs.map (Frame.outline (movedLine k))

namespace SameOutlines

variable {k : Nat} {fs fs' : List Frame}

/-- What the outlines show is the same for both. -/
theorem map {α : Type} (h : SameOutlines k fs fs') (p : Frame → α)
    (hp : ∀ g f, p (Frame.outline g f) = p f) : fs'.map p = fs.map p := by
  have hmap := congrArg (List.map p) h
  simpa only [List.map_map, Function.comp_def, hp] using hmap

theorem any (h : SameOutlines k fs fs') (p : Frame → Bool)
    (hp : ∀ g f, p (Frame.outline g f) = p f) : fs'.any p = fs.any p := by
  have hany := congrArg (List.any · id) (h.map p hp)
  simpa only [List.any_map, Function.id_comp] using hany

theorem findSome? {α : Type} (h : SameOutlines k fs fs') (p : Frame → Option α)
    (hp : ∀ g f, p (Frame.outline g f) = p f) : fs'.findSome? p = fs.findSome? p := by
  have hfind := congrArg (List.findSome? id) (h.map p hp)
  simpa only [List.findSome?_map, Function.id_comp] using hfind

/-- The first frame of a kind that the outlines show. -/
theorem find? (h : SameOutlines k fs fs') {p p' r : Frame → Bool}
    (hp' : ∀ f, r (Frame.outline id f) = p' f)
    (hp : ∀ f, r (Frame.outline (movedLine k) f) = p f) :
    (fs'.find? p').map (Frame.outline id) = (fs.find? p).map (Frame.outline (movedLine k)) := by
  have hfind := congrArg (List.find? r) h
  rw [List.find?_map, List.find?_map] at hfind
  rwa [show r ∘ Frame.outline id = p' from funext hp',
    show r ∘ Frame.outline (movedLine k) = p from funext hp] at hfind

end SameOutlines

/-- What the outline shows of a frame that is found in both trees. -/
theorem map_eq_of_outline {α : Type} {k : Nat} {o o' : Option Frame}
    (h : o'.map (Frame.outline id) = o.map (Frame.outline (movedLine k))) (p : Frame → α)
    (hp : ∀ g f, p (Frame.outline g f) = p f) : o'.map p = o.map p := by
  have hmap := congrArg (Option.map p) h
  simpa only [Option.map_map, Function.comp_def, hp] using hmap

namespace ScopeTree.Moved

variable {k : Nat} {tree tree' : ScopeTree} (h : tree.Moved k tree')
include h

theorem toList : SameOutlines k tree.frames.toList tree'.frames.toList := by
  have hframes := congrArg Array.toList h.frames
  rwa [Array.toList_map, Array.toList_map] at hframes

theorem frame? (i : Nat) : (tree'.frame? i).map (Frame.outline id) =
    (tree.frame? i).map (Frame.outline (movedLine k)) :=
  h.frames.getElem? i

theorem frameAt? (n : Nat) : (tree'.frameAt? (movedLine k n : Nat)).map (Frame.outline id) =
    (tree.frameAt? n).map (Frame.outline (movedLine k)) := by
  rw [ScopeTree.frameAt?, ScopeTree.frameAt?, if_neg (by omega), if_neg (by omega),
    Int.toNat_natCast, Int.toNat_natCast, h.lineFrames]
  cases tree.lineFrames[n]? with
  | none => rfl
  | some i => exact h.frame? i

theorem ancestors (i : Nat) : SameOutlines k (tree.ancestors i) (tree'.ancestors i) := by
  induction i using Nat.strongRecOn with
  | ind i ih =>
      rw [ScopeTree.ancestors, ScopeTree.ancestors.eq_def tree']
      rcases Frame.cases_outline (h.frames.getElem? i) with ⟨hf, hf'⟩ | ⟨f, f', hf, hf', hsame⟩
      · rw [hf, hf']
        rfl
      · have hparent := Frame.congr_outline hsame Frame.parent fun _ _ => rfl
        rw [hf, hf']
        dsimp only
        rw [hparent]
        cases f.parent with
        | none => exact congrArg (· :: []) hsame
        | some p =>
            dsimp only
            split
            · rename_i hlt
              rw [SameOutlines, List.map_cons, List.map_cons, hsame, ih p hlt]
            · exact congrArg (· :: []) hsame

/-- The frames around a line. -/
theorem around (n : Nat) : SameOutlines k (tree.around n) (tree'.around (movedLine k n : Nat)) := by
  have hid := map_eq_of_outline (h.frameAt? n) Frame.id fun _ _ => rfl
  have heq (tree : ScopeTree) (line : Int) : tree.around line =
      (((tree.frameAt? line).map Frame.id).map tree.ancestors).getD [] := by
    unfold ScopeTree.around
    cases tree.frameAt? line <;> rfl
  rw [heq, heq, hid]
  cases (tree.frameAt? n).map Frame.id with
  | none => rfl
  | some i => exact h.ancestors i

theorem functionAt? (n : Nat) :
    (tree'.functionAt? (movedLine k n : Nat)).map Frame.id = (tree.functionAt? n).map Frame.id :=
  map_eq_of_outline
    ((h.around n).find? (r := fun f => f.kind == .function) (fun _ => rfl) fun _ => rfl)
    Frame.id fun _ _ => rfl

/-- The frame whose header stands on a line. -/
theorem openedAt? (n : Nat) :
    (tree'.openedAt? (movedLine k n : Nat)).map Frame.id = (tree.openedAt? n).map Frame.id := by
  rw [ScopeTree.openedAt?, ScopeTree.openedAt?, ← Array.find?_toList, ← Array.find?_toList]
  refine map_eq_of_outline (h.toList.find?
    (r := fun f => (f.start : Int) == (movedLine k n : Nat) && f.parent.isSome && f.head.isNone &&
      !f.isImplicit) ?_ ?_) Frame.id fun _ _ => rfl
  · intro f
    cases hparent : f.parent <;> simp [Frame.outline, hparent, Frame.isImplicit]
  · intro f
    cases hparent : f.parent <;>
      simp [Frame.outline, hparent, Frame.isImplicit, natCast_movedLine_beq]

/-- The branch of a frame that starts on a line. -/
theorem branchAt? (i n : Nat) :
    ((tree'.children i).find? fun f => f.start == movedLine k n).map Frame.id =
      ((tree.children i).find? fun f => f.start == n).map Frame.id := by
  rw [h.children, h.children', List.find?_filter, List.find?_filter]
  refine map_eq_of_outline (h.toList.find?
    (r := fun f => decide ((f.parent == some i) = true ∧ (f.start == movedLine k n) = true)) ?_ ?_)
    Frame.id fun _ _ => rfl
  · intro f
    cases hparent : f.parent <;> simp [Frame.outline, hparent]
  · intro f
    cases hparent : f.parent <;> simp [Frame.outline, hparent]

theorem isMethod {f f' : Frame} (hf : f'.outline id = f.outline (movedLine k)) :
    tree'.isMethod f' = tree.isMethod f := by
  have hkind := Frame.congr_outline hf Frame.kind fun _ _ => rfl
  have hparent := Frame.congr_outline hf Frame.parent fun _ _ => rfl
  have hconstruct := Frame.congr_outline hf Frame.construct fun _ _ => rfl
  have hname := Frame.congr_outline hf Frame.name fun _ _ => rfl
  rw [ScopeTree.isMethod, ScopeTree.isMethod, hkind, hparent, hconstruct, hname]
  cases hp : f.parent with
  | none => rfl
  | some p =>
      rw [Option.bind_some, Option.bind_some]
      rcases Frame.cases_outline (h.frame? p) with ⟨hg, hg'⟩ | ⟨g, g', hg, hg', hsame⟩
      · rw [hg, hg']
      · have hkind := Frame.congr_outline hsame Frame.kind fun _ _ => rfl
        have hname := Frame.congr_outline hsame Frame.name fun _ _ => rfl
        simp only [hg, hg', hkind, hname]

omit h in
theorem meetsLoop {fs fs' : List Frame} (hsame : SameOutlines k fs fs') :
    ScopeTree.meetsLoop fs' = ScopeTree.meetsLoop fs := by
  have hkinds := hsame.map Frame.kind fun _ _ => rfl
  clear hsame
  induction fs generalizing fs' with
  | nil =>
      obtain rfl := List.map_eq_nil_iff.1 hkinds
      rfl
  | cons f fs ih =>
      obtain ⟨f', fs', rfl, hkind, hrest⟩ := List.map_eq_cons_iff.1 hkinds
      rw [ScopeTree.meetsLoop, ScopeTree.meetsLoop, hkind, ih hrest]

/-- A line is inside the same constructs. -/
theorem contains (n : Nat) (kind : BlockKind) :
    tree'.contains (movedLine k n : Nat) kind = tree.contains n kind := by
  have haround := h.around n
  have hmethods : (tree'.around (movedLine k n : Nat)).any tree'.isMethod =
      (tree.around n).any tree.isMethod := by
    generalize tree'.around (movedLine k n : Nat) = fs' at haround
    generalize tree.around n = fs at haround
    rw [SameOutlines] at haround
    induction fs generalizing fs' with
    | nil =>
        obtain rfl := List.map_eq_nil_iff.1 haround
        rfl
    | cons f fs ih =>
        obtain ⟨f', fs', rfl, hf, hrest⟩ := List.map_eq_cons_iff.1 haround
        rw [List.any_cons, List.any_cons, h.isMethod hf, ih _ hrest]
  cases kind with
  | loop => exact meetsLoop haround
  | classLike => exact hmethods
  | module => exact haround.any _ fun _ _ => rfl
  | function => exact haround.any _ fun _ _ => rfl
  | interface => exact haround.any _ fun _ _ => rfl
  | conditional => exact haround.any _ fun _ _ => rfl

end ScopeTree.Moved

end Polyloft
