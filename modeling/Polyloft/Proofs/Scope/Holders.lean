import Mathlib.Data.List.Forall2
import Polyloft.Proofs.Scope.Nesting

/-!
# Polyloft.Proofs.Scope.Holders

The blocks that hold a line of a well-nested program, and what is allowed in them.

`Items.holders` lists for each line the blocks around it, innermost first, by recursion on the
grammar. On such a list it is said what it takes to be inside a loop, a function or a method
(`InLoop`, `InFunction`, `InMethod`), without a tree. The scope tree keeps the same information as
numbered frames with parents. `ScopeTree.HeldBy` relates a frame to the blocks that it and the
frames around it stand for; every line of a program is held by its blocks (`heldBy_items`), and
walking outwards in the tree answers what is said about the blocks.
-/

namespace Polyloft

/-! ### Blocks around a line -/

mutual

/-- The blocks that hold each line of a program, innermost first, when `around` is around all of
it. A header is held by the blocks around its construct, a terminator by the block it closes and a
construct on one line by itself. -/
def Items.holders (around : List Opening) : Items → List (List Opening)
  | .nil => []
  | .blank rest => around :: rest.holders around
  | .plain _ rest => around :: rest.holders around
  | .inline line rest => (line.opening :: around) :: rest.holders around
  | .block header body _ rest =>
      around :: (body.holders (header.opening :: around) ++
        (header.opening :: around) :: rest.holders around)
  | .chain _ header body branches rest =>
      around :: (body.holders (header.opening :: around) ++
        (branches.holders header.opening around ++ rest.holders around))
  | .switch header body clauses rest =>
      around :: (body.holders (header.opening :: around) ++
        (clauses.holders (header.opening :: around) ++ rest.holders around))

/-- The blocks that hold each line of the rest of a chain, when `current` is its part before. A
branch line is held by the blocks around the chain, unless it carries the `end` of the chain. -/
def Branches.holders {family : ChainFamily} (current : Opening) (around : List Opening) :
    Branches family → List (List Opening)
  | .close _ => [current :: around]
  | .last line => [⟨line.construct, none⟩ :: around]
  | .branch line body rest =>
      around :: (body.holders (⟨line.construct, none⟩ :: around) ++
        rest.holders ⟨line.construct, none⟩ around)

/-- The blocks that hold each line of the rest of a switch, which is the innermost of `around`. -/
def Clauses.holders (around : List Opening) : Clauses → List (List Opening)
  | .close _ => [around]
  | .clause line body rest =>
      around :: (body.holders (⟨line.construct, none⟩ :: around) ++ rest.holders around)

end

/-- The kind of block. -/
def Opening.kind (o : Opening) : BlockKind :=
  o.construct.kind

/-- Walking outwards, a loop is met before the first function, class-like or interface. -/
def InLoop (blocks : List Opening) : Prop :=
  ∃ inner loop outer, blocks = inner ++ loop :: outer ∧ loop.kind = .loop ∧
    ∀ b ∈ inner, b.kind ∉ [.function, .classLike, .interface]

/-- One of the blocks is a function. -/
def InFunction (blocks : List Opening) : Prop :=
  ∃ b ∈ blocks, b.kind = .function

/-- One of the blocks is a function directly in a class-like, where a constructor must bear the
name of the class. -/
def InMethod (blocks : List Opening) : Prop :=
  ∃ inner method owner outer, blocks = inner ++ method :: owner :: outer ∧
    method.kind = .function ∧ owner.kind = .classLike ∧
    (method.construct = .constructor → method.name = owner.name)

theorem inLoop_cons {b : Opening} {blocks : List Opening} :
    InLoop (b :: blocks) ↔
      b.kind = .loop ∨ (b.kind ∉ [.function, .classLike, .interface] ∧ InLoop blocks) := by
  constructor
  · rintro ⟨inner, loop, outer, heq, hloop, hinner⟩
    cases inner with
    | nil =>
        obtain ⟨rfl, rfl⟩ := List.cons.inj heq
        exact .inl hloop
    | cons c inner =>
        obtain ⟨rfl, rfl⟩ := List.cons.inj heq
        rw [List.forall_mem_cons] at hinner
        exact .inr ⟨hinner.1, inner, loop, outer, rfl, hloop, hinner.2⟩
  · rintro (hloop | ⟨hb, inner, loop, outer, rfl, hloop, hinner⟩)
    · exact ⟨[], b, blocks, rfl, hloop, by simp⟩
    · exact ⟨b :: inner, loop, outer, rfl, hloop, List.forall_mem_cons.2 ⟨hb, hinner⟩⟩

theorem inMethod_cons {b : Opening} {blocks : List Opening} :
    InMethod (b :: blocks) ↔
      (∃ owner outer, blocks = owner :: outer ∧ b.kind = .function ∧ owner.kind = .classLike ∧
        (b.construct = .constructor → b.name = owner.name)) ∨ InMethod blocks := by
  constructor
  · rintro ⟨inner, method, owner, outer, heq, h⟩
    cases inner with
    | nil =>
        obtain ⟨rfl, rfl⟩ := List.cons.inj heq
        exact .inl ⟨owner, outer, rfl, h⟩
    | cons c inner =>
        obtain ⟨rfl, rfl⟩ := List.cons.inj heq
        exact .inr ⟨inner, method, owner, outer, rfl, h⟩
  · rintro (⟨owner, outer, rfl, h⟩ | ⟨inner, method, owner, outer, rfl, h⟩)
    · exact ⟨[], b, owner, outer, rfl, h⟩
    · exact ⟨b :: inner, method, owner, outer, rfl, h⟩

/-! ### Blocks of a frame -/

theorem Construct.kind_eq_module_iff {c : Construct} : c.kind = .module ↔ c = .module := by
  cases c <;> decide

/-- The block that a frame stands for. -/
def Frame.block (f : Frame) : Opening :=
  ⟨f.construct, f.name⟩

namespace ScopeTree

/-- The frame with a number stands, together with the frames around it, for a list of blocks. The
module is no block. -/
inductive HeldBy (tree : ScopeTree) : Nat → List Opening → Prop where
  | module {f : Frame} (frame : tree.frames[0]? = some f) (id_eq : f.id = 0)
      (construct : f.construct = .module) (parent : f.parent = none) : HeldBy tree 0 []
  | block {i j : Nat} {f : Frame} {blocks : List Opening} (frame : tree.frames[i]? = some f)
      (id_eq : f.id = i) (construct : f.construct ≠ .module) (parent : f.parent = some j)
      (parent_lt : j < i) (around : HeldBy tree j blocks) : HeldBy tree i (f.block :: blocks)

variable {tree : ScopeTree} {i j : Nat} {f : Frame} {blocks : List Opening}

theorem ancestors_of_parent (hf : tree.frames[i]? = some f) (hparent : f.parent = some j)
    (hlt : j < i) : tree.ancestors i = f :: tree.ancestors j := by
  rw [ancestors, hf]
  simp only [hparent, if_pos hlt]

theorem ancestors_of_root (hf : tree.frames[i]? = some f) (hparent : f.parent = none) :
    tree.ancestors i = [f] := by
  rw [ancestors, hf]
  simp only [hparent]

namespace HeldBy

theorem exists_frame (h : HeldBy tree i blocks) : ∃ f, tree.frames[i]? = some f ∧ f.id = i := by
  cases h with
  | module hf hid => exact ⟨_, hf, hid⟩
  | block hf hid => exact ⟨_, hf, hid⟩

theorem meetsLoop_iff (h : HeldBy tree i blocks) :
    meetsLoop (tree.ancestors i) = true ↔ InLoop blocks := by
  induction h with
  | @module f hf _ hmodule hparent =>
      have hkind : f.kind = .module := Construct.kind_eq_module_iff.2 hmodule
      simp [ancestors_of_root hf hparent, meetsLoop, hkind, InLoop]
  | @block i j f blocks hf _ hconstruct hparent hlt _ ih =>
      have hmodule : f.kind ≠ .module := fun h => hconstruct (Construct.kind_eq_module_iff.1 h)
      rw [ancestors_of_parent hf hparent hlt, meetsLoop, inLoop_cons,
        show f.block.kind = f.kind from rfl]
      cases hkind : f.kind with
      | module => exact absurd hkind hmodule
      | loop => simp
      | conditional => simp [ih]
      | function | classLike | interface => simp

theorem any_function_iff (h : HeldBy tree i blocks) :
    (tree.ancestors i).any (fun f => f.kind == .function) = true ↔ InFunction blocks := by
  induction h with
  | @module f hf _ hmodule hparent =>
      simp [ancestors_of_root hf hparent, InFunction, Frame.kind, hmodule, Construct.kind]
  | @block i j f blocks hf _ _ hparent hlt _ ih =>
      rw [ancestors_of_parent hf hparent hlt, List.any_cons, Bool.or_eq_true, ih, beq_iff_eq]
      simp only [InFunction, List.mem_cons, exists_eq_or_imp]
      rfl

/-- A frame is a method if its block is a function and the next block a class-like for it. -/
theorem isMethod_iff (h : HeldBy tree j blocks) (hparent : f.parent = some j) :
    tree.isMethod f = true ↔
      ∃ owner outer, blocks = owner :: outer ∧ f.block.kind = .function ∧
        owner.kind = .classLike ∧
        (f.block.construct = .constructor → f.block.name = owner.name) := by
  cases h with
  | module hg _ hmodule =>
      simp [isMethod, hparent, frame?, hg, Frame.kind, hmodule, Construct.kind]
  | @block _ _ g outer hg _ _ _ _ _ =>
      have howner : f.parent.bind tree.frame? = some g := by rw [hparent]; exact hg
      simp only [isMethod, howner, Bool.and_eq_true, Bool.or_eq_true, beq_iff_eq, bne_iff_ne,
        List.cons.injEq, ne_eq, ← imp_iff_not_or]
      constructor
      · exact fun h => ⟨g.block, outer, ⟨rfl, rfl⟩, h⟩
      · rintro ⟨_, _, ⟨rfl, rfl⟩, h⟩
        exact h

theorem any_isMethod_iff (h : HeldBy tree i blocks) :
    (tree.ancestors i).any tree.isMethod = true ↔ InMethod blocks := by
  induction h with
  | @module f hf _ hmodule hparent =>
      simp [ancestors_of_root hf hparent, InMethod, isMethod, Frame.kind, hmodule, Construct.kind]
  | @block i j f blocks hf _ _ hparent hlt haround ih =>
      rw [ancestors_of_parent hf hparent hlt, List.any_cons, Bool.or_eq_true, ih,
        haround.isMethod_iff hparent, inMethod_cons]

end HeldBy

end ScopeTree

/-! ### Every line is held by its blocks -/

theorem getElem?_of_cons_prefix_drop {α : Type} {x : α} {xs all : List α} {i : Nat}
    (h : x :: xs <+: all.drop i) : all[i]? = some x ∧ xs <+: all.drop (i + 1) := by
  obtain ⟨rest, h⟩ := h
  constructor
  · rw [← Nat.add_zero i, ← List.getElem?_drop, ← h]
    rfl
  · refine ⟨rest, ?_⟩
    rw [← List.drop_drop, ← h]
    rfl

theorem prefix_drop_of_append {α : Type} {xs ys all : List α} {i : Nat}
    (h : xs ++ ys <+: all.drop i) : xs <+: all.drop i ∧ ys <+: all.drop (i + xs.length) := by
  obtain ⟨rest, h⟩ := h
  constructor
  · exact ⟨ys ++ rest, by rw [← h, List.append_assoc]⟩
  · refine ⟨rest, ?_⟩
    rw [← List.drop_drop, ← h, List.append_assoc, List.drop_left]

namespace ScopeTree

variable {tree : ScopeTree}

/-- The first of the frames from number `i` on opens a block in the frame that it names as parent;
the others follow it. -/
theorem HeldBy.of_cons_prefix {f : Frame} {frames : List Frame} {i j : Nat} {blocks : List Opening}
    (h : f :: frames <+: tree.frames.toList.drop i) (hid : f.id = i)
    (hconstruct : f.construct ≠ .module) (hparent : f.parent = some j) (hlt : j < i)
    (haround : tree.HeldBy j blocks) :
    tree.HeldBy i (f.block :: blocks) ∧ frames <+: tree.frames.toList.drop (i + 1) := by
  obtain ⟨hframe, hframes⟩ := getElem?_of_cons_prefix_drop h
  rw [Array.getElem?_toList] at hframe
  exact ⟨.block hframe hid hconstruct hparent hlt haround, hframes⟩

mutual

/-- The frame of each line of a program stands for the blocks that hold the line, in every tree that
has the frames of the program from number `id` on. -/
theorem heldBy_items : ∀ (p : Items) (n id parent : Nat) (around : List Opening),
    p.frames n id parent <+: tree.frames.toList.drop id → parent < id →
    tree.HeldBy parent around →
    List.Forall₂ tree.HeldBy (p.owners id parent) (p.holders around)
  | .nil, _, _, _, _, _, _, _ => .nil
  | .blank rest, n, id, parent, around, hframes, hlt, haround =>
      .cons haround (heldBy_items rest (n + 1) id parent around hframes hlt haround)
  | .plain _ rest, n, id, parent, around, hframes, hlt, haround =>
      .cons haround (heldBy_items rest (n + 1) id parent around hframes hlt haround)
  | .inline line rest, n, id, parent, around, hframes, hlt, haround => by
      rw [Items.frames] at hframes
      obtain ⟨hblock, hrest⟩ :=
        HeldBy.of_cons_prefix hframes rfl (opening?_construct line.opens).1 rfl hlt haround
      rw [Items.owners, Items.holders]
      exact .cons hblock (heldBy_items rest _ _ _ _ hrest (by omega) haround)
  | .block header body _ rest, n, id, parent, around, hframes, hlt, haround => by
      rw [Items.frames] at hframes
      obtain ⟨hblock, hframes⟩ :=
        HeldBy.of_cons_prefix hframes rfl (opening?_construct header.opens).1 rfl hlt haround
      obtain ⟨hbody, hrest⟩ := prefix_drop_of_append hframes
      rw [Items.length_frames] at hrest
      rw [Items.owners, Items.holders]
      refine .cons haround (List.rel_append ?_ (.cons hblock ?_))
      · exact heldBy_items body _ _ _ _ hbody (by omega) hblock
      · exact heldBy_items rest _ _ _ _ hrest (by omega) haround
  | .chain _ header body branches rest, n, id, parent, around, hframes, hlt, haround => by
      rw [Items.frames] at hframes
      obtain ⟨hblock, hframes⟩ :=
        HeldBy.of_cons_prefix hframes rfl (opening?_construct header.opens).1 rfl hlt haround
      obtain ⟨hbody, hframes⟩ := prefix_drop_of_append hframes
      obtain ⟨hbranches, hrest⟩ := prefix_drop_of_append hframes
      rw [Items.length_frames] at hbranches hrest
      rw [Branches.length_frames] at hrest
      rw [Items.owners, Items.holders]
      refine .cons haround (List.rel_append ?_ (List.rel_append ?_ ?_))
      · exact heldBy_items body _ _ _ _ hbody (by omega) hblock
      · exact heldBy_branches branches _ _ _ _ _ _ _ hbranches (by omega) haround hblock
      · exact heldBy_items rest _ _ _ _ hrest (by omega) haround
  | .switch header body clauses rest, n, id, parent, around, hframes, hlt, haround => by
      rw [Items.frames] at hframes
      obtain ⟨hblock, hframes⟩ :=
        HeldBy.of_cons_prefix hframes rfl (opening?_construct header.opens).1 rfl hlt haround
      obtain ⟨hbody, hframes⟩ := prefix_drop_of_append hframes
      obtain ⟨hclauses, hrest⟩ := prefix_drop_of_append hframes
      rw [Items.length_frames] at hclauses hrest
      rw [Clauses.length_frames] at hrest
      rw [Items.owners, Items.holders]
      refine .cons haround (List.rel_append ?_ (List.rel_append ?_ ?_))
      · exact heldBy_items body _ _ _ _ hbody (by omega) hblock
      · exact heldBy_clauses clauses _ _ _ _ hclauses (by omega) hblock
      · exact heldBy_items rest _ _ _ _ hrest (by omega) haround

theorem heldBy_branches {family : ChainFamily} : ∀ (r : Branches family)
    (n id parent head last : Nat) (current : Opening) (around : List Opening),
    r.frames n id parent head <+: tree.frames.toList.drop id → parent < id →
    tree.HeldBy parent around → tree.HeldBy last (current :: around) →
    List.Forall₂ tree.HeldBy (r.owners id parent last) (r.holders current around)
  | .close _, _, _, _, _, _, _, _, _, _, _, hlast => .cons hlast .nil
  | .last line, n, id, parent, head, _, _, around, hframes, hlt, haround, _ => by
      rw [Branches.frames] at hframes
      have hconstruct := branchConstruct?_ne_module line.branches
      exact .cons (HeldBy.of_cons_prefix hframes rfl hconstruct rfl hlt haround).1 .nil
  | .branch line body rest, n, id, parent, head, _, _, around, hframes, hlt, haround, _ => by
      rw [Branches.frames] at hframes
      obtain ⟨hblock, hframes⟩ :=
        HeldBy.of_cons_prefix hframes rfl (branchConstruct?_ne_module line.branches) rfl hlt haround
      obtain ⟨hbody, hrest⟩ := prefix_drop_of_append hframes
      rw [Items.length_frames] at hrest
      rw [Branches.owners, Branches.holders]
      refine .cons haround (List.rel_append ?_ ?_)
      · exact heldBy_items body _ _ _ _ hbody (by omega) hblock
      · exact heldBy_branches rest _ _ _ _ _ _ _ hrest (by omega) haround hblock

theorem heldBy_clauses : ∀ (r : Clauses) (n id parent : Nat) (around : List Opening),
    r.frames n id parent <+: tree.frames.toList.drop id → parent < id →
    tree.HeldBy parent around →
    List.Forall₂ tree.HeldBy (r.owners id parent) (r.holders around)
  | .close _, _, _, _, _, _, _, haround => .cons haround .nil
  | .clause line body rest, n, id, parent, around, hframes, hlt, haround => by
      rw [Clauses.frames] at hframes
      have hconstruct : line.construct ≠ .module := by
        intro h
        have hclause := isClause_of_clauseConstruct? line.starts
        rw [h] at hclause
        cases hclause
      obtain ⟨hblock, hframes⟩ := HeldBy.of_cons_prefix hframes rfl hconstruct rfl hlt haround
      obtain ⟨hbody, hrest⟩ := prefix_drop_of_append hframes
      rw [Items.length_frames] at hrest
      rw [Clauses.owners, Clauses.holders]
      refine .cons haround (List.rel_append ?_ ?_)
      · exact heldBy_items body _ _ _ _ hbody (by omega) hblock
      · exact heldBy_clauses rest _ _ _ _ hrest (by omega) haround

end

/-! ### The tree of a program -/

/-- The scope tree of a program has the program's frames behind the module. -/
theorem frames_build {p : Items} {doc : Document} (hnum : doc.IsNumbered)
    (hlines : doc.lines.map Line.codeTokens = p.lines) :
    (ScopeTree.build doc).frames.toList =
        ⟨0, .module, none, 0, some (doc.size - 1), none, none, false⟩ :: p.frames 0 1 0 ∧
      (ScopeTree.build doc).lineFrames.toList = p.owners 1 0 := by
  rw [build_eq_run hnum, Document.scopeState, hlines, ScopeBuilder.run_items p]
  simp [ScopeBuilder.finish, ScopeBuilder.extend, ScopeBuilder.init, ScopeBuilder.top,
    ScopeBuilder.finishFrames]

/-- The frames around a line of a program are the blocks that hold it. -/
theorem exists_heldBy_of_holders {p : Items} {doc : Document} (hnum : doc.IsNumbered)
    (hlines : doc.lines.map Line.codeTokens = p.lines) {n : Nat} {blocks : List Opening}
    (hblocks : (p.holders [])[n]? = some blocks) :
    ∃ i, (ScopeTree.build doc).HeldBy i blocks ∧
      (ScopeTree.build doc).around n = (ScopeTree.build doc).ancestors i := by
  obtain ⟨hframes, howners⟩ := frames_build hnum hlines
  have hmodule : (ScopeTree.build doc).HeldBy 0 [] := by
    refine .module (f := ⟨0, .module, none, 0, some (doc.size - 1), none, none, false⟩) ?_ rfl rfl
      rfl
    rw [← Array.getElem?_toList, hframes]
    rfl
  have hheld := heldBy_items p 0 1 0 [] (by rw [hframes]; exact List.prefix_refl _) (by omega)
    hmodule
  rw [← howners] at hheld
  obtain ⟨i, hi, hheld⟩ : ∃ i, (ScopeTree.build doc).lineFrames[n]? = some i ∧
      (ScopeTree.build doc).HeldBy i blocks := by
    obtain ⟨hn, rfl⟩ := List.getElem?_eq_some_iff.1 hblocks
    have hn' : n < (ScopeTree.build doc).lineFrames.toList.length := by
      rw [hheld.length_eq]
      exact hn
    exact ⟨_, Array.getElem?_eq_getElem hn', hheld.get hn' hn⟩
  obtain ⟨f, hf, hid⟩ := hheld.exists_frame
  refine ⟨i, hheld, ?_⟩
  have hframeAt : (ScopeTree.build doc).frameAt? n = some f := by
    rw [frameAt?, if_neg (by omega), Int.toNat_natCast, hi]
    exact hf
  rw [around, hframeAt]
  simp only [hid]

end ScopeTree

end Polyloft
