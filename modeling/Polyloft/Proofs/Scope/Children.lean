import Mathlib.Data.List.Basic
import Polyloft.Scope.Tree

/-!
# Polyloft.Proofs.Scope.Children

The children of a frame. The pass keeps a list of them for every frame and adds to it with each
frame that it makes. The same lists can be computed from the frames, as those whose parent a frame
is, in order (`childLists`). A new frame changes both in the same way (`childLists_concat`), and
neither shows where frames end (`childLists_congr`), so that the pass, which only adds frames and
closes them, keeps the two equal.
-/

namespace Polyloft

/-- For each frame the numbers of the frames whose parent it is, in order. -/
def childLists (frames : List Frame) : Array (List Nat) :=
  ((List.range frames.length).map fun i =>
    (frames.filter fun f => f.parent == some i).map Frame.id).toArray

variable {fs : List Frame} {f : Frame}

theorem getElem?_childLists (fs : List Frame) (i : Nat) :
    (childLists fs)[i]? = if i < fs.length then
      some ((fs.filter fun f => f.parent == some i).map Frame.id) else none := by
  rw [childLists, List.getElem?_toArray, List.getElem?_map]
  by_cases hi : i < fs.length
  · rw [List.getElem?_range hi, if_pos hi, Option.map_some]
  · rw [List.getElem?_eq_none (by simpa using hi), if_neg hi, Option.map_none]

/-- The lists only depend on the numbers and the parents of the frames. -/
theorem childLists_congr {frames frames' : Array Frame}
    (h : ∀ i : Nat, frames'[i]?.map (fun f => (f.id, f.parent)) =
      frames[i]?.map fun f => (f.id, f.parent)) :
    childLists frames'.toList = childLists frames.toList := by
  have hmap : frames'.toList.map (fun f => (f.id, f.parent)) =
      frames.toList.map fun f => (f.id, f.parent) := by
    refine List.ext_getElem? fun i => ?_
    rw [List.getElem?_map, List.getElem?_map, Array.getElem?_toList, Array.getElem?_toList, h]
  have hlength : frames'.toList.length = frames.toList.length := by
    simpa using congrArg List.length hmap
  have hlist (fs : List Frame) (i : Nat) : (fs.filter fun f => f.parent == some i).map Frame.id =
      ((fs.map fun f => (f.id, f.parent)).filter fun r => r.2 == some i).map Prod.fst := by
    rw [List.filter_map, List.map_map]
    rfl
  rw [childLists, childLists, hlength]
  simp only [hlist, hmap]

/-- A new frame is the last child of its parent, and has no children. -/
theorem childLists_concat (hfs : ∀ g ∈ fs, ∀ p, g.parent = some p → p < fs.length) {p : Nat}
    (hf : f.parent = some p) (hp : p < fs.length) :
    childLists (fs ++ [f]) = ScopeBuilder.addChild (childLists fs) f := by
  have hsize : (childLists fs).size = fs.length := by simp [childLists]
  rw [ScopeBuilder.addChild, hf]
  refine Array.ext_getElem? fun i => ?_
  rw [getElem?_childLists, Array.getElem?_push, Array.size_modify, hsize, Array.getElem?_modify,
    getElem?_childLists, List.length_append, List.length_singleton, List.filter_append,
    List.map_append]
  rcases Nat.lt_trichotomy i fs.length with hi | rfl | hi
  · rw [if_pos (by omega), if_neg (by omega), if_pos hi]
    by_cases hpi : p = i
    · simp [hpi, hf]
    · simp [hpi, hf]
  · -- No frame so far is a child of the new one.
    have hnone : (fs.filter fun g => g.parent == some fs.length) = [] := by
      refine List.filter_eq_nil_iff.2 fun g hg hparent => ?_
      exact Nat.lt_irrefl _ (hfs g hg _ (by simpa using hparent))
    simp [hnone, hf, Nat.ne_of_lt hp]
  · rw [if_neg (by omega), if_neg (by omega), if_neg (by omega), if_neg (by omega)]

namespace ScopeTree

/-- The children of every frame are the frames whose parent it is, in order. -/
def ListsChildren (tree : ScopeTree) : Prop :=
  ∀ i, tree.children i = tree.frames.toList.filter fun f => f.parent == some i

theorem listsChildren_of_childIds {tree : ScopeTree}
    (hids : ∀ {i : Nat} {f : Frame}, tree.frames[i]? = some f → f.id = i)
    (hparents : ∀ {i p : Nat} {f : Frame}, tree.frames[i]? = some f → f.parent = some p → p < i)
    (h : tree.childIds = childLists tree.frames.toList) : tree.ListsChildren := by
  have hframe (f : Frame) (hf : f ∈ tree.frames.toList) :
      tree.frame? f.id = some f ∧ ∀ p, f.parent = some p → p < tree.frames.toList.length := by
    obtain ⟨i, hi⟩ := List.getElem?_of_mem hf
    rw [Array.getElem?_toList] at hi
    refine ⟨by rw [hids hi]; exact hi, fun p hp => ?_⟩
    have hlt := hparents hi hp
    have hsize := (Array.getElem?_eq_some_iff.1 hi).1
    rw [Array.length_toList]
    omega
  intro i
  rw [children, h, getElem?_childLists]
  split
  · rw [Option.getD_some, List.filterMap_map]
    refine (List.filterMap_congr fun f hf => ?_).trans List.filterMap_some
    exact (hframe f (List.mem_filter.1 hf).1).1
  · rename_i hi
    refine (List.filter_eq_nil_iff.2 fun f hf hparent => hi ?_).symm
    exact (hframe f hf).2 i (by simpa using hparent)

end ScopeTree

end Polyloft
