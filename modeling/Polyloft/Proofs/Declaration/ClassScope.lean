import Polyloft.Proofs.Declaration.Header
import Polyloft.Proofs.Declaration.Visible
import Polyloft.Proofs.Scope.HeaderLine

/-!
# Polyloft.Proofs.Declaration.ClassScope

Where a class-like can be named. A class-like with a body lives in the frame that holds its header
line. For a body that takes further lines this is the block around the class-like, so it can be
named on every line of that block, before its own line too. A class-like that is written on one line
holds that line itself: it lives in its own body, and on the lines around it it is neither found nor
listed.
-/

namespace Polyloft

namespace ScopeTree

/-- The frames around a frame are numbered down from it. -/
theorem id_le_of_mem_ancestors {tree : ScopeTree}
    (hid : ∀ {i f}, tree.frame? i = some f → f.id = i) (i : Nat) {g : Frame}
    (hg : g ∈ tree.ancestors i) : g.id ≤ i := by
  induction i using Nat.strongRecOn with
  | ind i ih =>
      rw [ancestors] at hg
      split at hg
      · simp at hg
      · rename_i f hf
        split at hg
        · exact (hid (List.mem_singleton.1 hg ▸ hf)).le
        · split at hg
          · rename_i p _ hlt
            rcases List.mem_cons.1 hg with rfl | hg
            · exact (hid hf).le
            · exact (ih p hlt hg).trans hlt.le
          · exact (hid (List.mem_singleton.1 hg ▸ hf)).le

theorem exists_frame_of_frameAt? {tree : ScopeTree} {line : Int} {f : Frame}
    (h : tree.frameAt? line = some f) : ∃ i, tree.frame? i = some f := by
  rw [frameAt?] at h
  split at h
  · cases h
  · obtain ⟨i, -, hi⟩ := Option.bind_eq_some_iff.1 h
    exact ⟨i, hi⟩

/-- A frame is the first of the frames around it. -/
theorem mem_ancestors_self {tree : ScopeTree} {i : Nat} {f : Frame} (hf : tree.frame? i = some f) :
    f ∈ tree.ancestors i := by
  rw [ancestors, show tree.frames[i]? = some f from hf]
  dsimp only
  split
  · exact List.mem_singleton_self f
  · split <;> simp

end ScopeTree

namespace Collect

/-- A class-like with a body lives in the frame of its line, and its body is what the line opens. -/
theorem Declares.of_classLike {tree : ScopeTree} {line : Line} {ds : List Declaration}
    (h : Declares tree line ds) {d : Declaration} (hd : d ∈ ds) (hkind : d.kind = .classLike) :
    d.frame = frameOf tree line ∧ d.body = bodyOf tree line := by
  have hvariable : ∀ {params form body owner}, form.kind = .variable →
      d ∈ parameterDecls line params form body owner → False := by
    intro params form body owner hform hd
    rw [Declaration.kind, (fields_of_mem_parameterDecls hd).1, hform] at hkind
    cases hkind
  cases h with
  | nothing => simp at hd
  | classLike word name _ =>
      rcases mem_classDecls hd with ⟨hhead, -⟩ | ⟨_, _, _, -, -, hd⟩
      · unfold classDecls at hhead
        dsimp only at hhead
        split at hhead
        · obtain rfl := Option.some.inj hhead
          exact ⟨rfl, rfl⟩
        · obtain rfl := Option.some.inj hhead
          exact ⟨rfl, rfl⟩
      · exact (hvariable rfl hd).elim
  | function form hform name _ =>
      rcases mem_functionDecls hd with ⟨-, hform', -⟩ | ⟨_, hd⟩
      · rw [Declaration.kind, hform'] at hkind
        rcases hform with rfl | rfl <;> cases hkind
      · exact (hvariable rfl hd).elim
  | «variable» v =>
      obtain rfl := List.mem_singleton.1 hd
      cases hkind
  | loop l _ =>
      rw [Declaration.kind, (mem_loopDecls hd).1] at hkind
      cases hkind
  | caught name type =>
      rw [Declaration.kind, form_of_mem_caughtDecls hd] at hkind
      cases hkind
  | member =>
      rw [Declaration.kind] at hkind
      rcases form_of_mem_memberDecls hd with hform | hform <;> rw [hform] at hkind <;> cases hkind

end Collect

/-! ### The table -/

namespace DeclarationTable

section

variable {doc : Document} (hdoc : doc.IsNumbered) {d : Declaration} {f : Frame} {b : Nat}
include hdoc

/-- A class-like with a body lives in the frame that holds its header. -/
theorem frame_of_classLike (hd : d ∈ (collect doc (ScopeTree.build doc)).declarations)
    (hkind : d.kind = .classLike) (hbody : d.body = some b)
    (hf : (ScopeTree.build doc).frame? b = some f) : d.frame = f.headerHome ∧ f.id = b := by
  obtain ⟨l, hl, hdl, -⟩ := exists_line_of_mem hd
  obtain ⟨hframe, hopens⟩ := (Collect.declares_lineDecls _ l).of_classLike hdl hkind
  rw [hbody] at hopens
  obtain ⟨f', hopened, rfl⟩ := Option.map_eq_some_iff.1 hopens.symm
  obtain ⟨hf', -⟩ := ScopeTree.opening_of_openedAt? hdoc hl hopened
  obtain rfl : f' = f := Option.some.inj (hf'.symm.trans hf)
  obtain ⟨g, hg, hid⟩ := ScopeTree.frameAt?_of_openedAt? hdoc hl hopened
  rw [hframe, Collect.frameOf, hg, Option.map_some, Option.getD_some]
  exact ⟨hid, rfl⟩

end

section

variable {table : DeclarationTable} {tree : ScopeTree} {d : Declaration} {line : Int}

/-- What is not a variable is in scope on every line that its frame is around. -/
theorem visible?_ne_none_of_mem (hd : d ∈ table.declarations) (hkind : d.kind ≠ .variable)
    {f : Frame} (hf : f ∈ tree.around line) (hframe : d.frame = f.id) :
    table.visible? d.name line tree ≠ none := by
  intro hnone
  have heligible : d ∈ table.eligible d.name line f.id := by
    refine mem_eligible.2 ⟨hd, hframe, rfl, fun hvariable => absurd ?_ hkind⟩
    simpa [Declaration.isVariable] using hvariable
  rw [visible?_eq_none_iff.1 hnone f hf] at heligible
  cases heligible

/-- What is found or listed lives in a frame around the line. -/
theorem exists_around_of_visible? {name : String} (h : table.visible? name line tree = some d) :
    ∃ f ∈ tree.around line, d.frame = f.id := by
  obtain ⟨inner, f, outer, haround, hchosen, -⟩ := visible?_eq_some_iff.1 h
  have hframe := (mem_eligible.1 (mem_eligible_of_chosen hchosen)).2.1
  exact ⟨f, haround ▸ List.mem_append_right _ List.mem_cons_self, hframe⟩

theorem exists_around_of_mem_visibleNames (h : d ∈ table.visibleNames line tree) :
    ∃ f ∈ tree.around line, d.frame = f.id := by
  have hfind := find?_of_mem_visibleNames h rfl
  rw [find?_visibleNames] at hfind
  obtain ⟨inner, f, outer, haround, hhead, -⟩ := List.findSome?_eq_some_iff.1 hfind
  have hframe := (mem_eligible.1 (List.mem_of_head? hhead)).2.1
  exact ⟨f, haround ▸ List.mem_append_right _ List.mem_cons_self, hframe⟩

end

/-- In every text, a class-like whose body takes further lines can be named on every line of the
block around it. A class-like on one line cannot: on the other lines of that block it is neither
found nor listed. -/
theorem classLikes_are_visible_unless_inline (text : List Char) (uri : Option String) :
    let tree := ScopeTree.build (Document.ofText text uri)
    let table := collect (Document.ofText text uri) tree
    ∀ d ∈ table.declarations, d.kind = .classLike →
      ∀ b f, d.body = some b → tree.frame? b = some f →
        ∀ (line : Int) (g : Frame), tree.frameAt? line = some g → f.parent = some g.id →
          (f.inline = false → table.visible? d.name line tree ≠ none ∧
            d.name ∈ (table.visibleNames line tree).map Declaration.name) ∧
          (f.inline = true → table.visible? d.name line tree ≠ some d ∧
            d ∉ table.visibleNames line tree) := by
  intro tree table d hd hkind b f hbody hf line g hg hparent
  have hdoc := Document.isNumbered_ofText text uri
  have hwf := ScopeTree.wellFormed_of_isNumbered hdoc
  obtain ⟨hframe, rfl⟩ := frame_of_classLike hdoc hd hkind hbody hf
  obtain ⟨i, hi⟩ := ScopeTree.exists_frame_of_frameAt? hg
  obtain rfl := hwf.id_eq hi
  have haround : tree.around line = tree.ancestors g.id := by rw [ScopeTree.around, hg]
  constructor
  · intro hinline
    have hhome : d.frame = g.id := by rw [hframe, Frame.headerHome, hinline, hparent]; rfl
    have hvisible := visible?_ne_none_of_mem hd (by simp [hkind])
      (haround ▸ ScopeTree.mem_ancestors_self hi) hhome
    exact ⟨hvisible, mem_names_iff.2 hvisible⟩
  · intro hinline
    have hhome : d.frame = f.id := by rw [hframe, Frame.headerHome, hinline]; rfl
    -- The frames around the line come before the body of the class-like.
    have hout : ¬ ∃ h ∈ tree.around line, d.frame = h.id := by
      rintro ⟨h, hmem, hid⟩
      have hle := ScopeTree.id_le_of_mem_ancestors hwf.id_eq g.id (haround ▸ hmem)
      have hlt := (hwf.parent_lt hf hparent).1
      omega
    exact ⟨fun h => hout (exists_around_of_visible? h),
      fun h => hout (exists_around_of_mem_visibleNames h)⟩

/-- Two classes, the second of them on one line, and a variable. -/
def twoClasses : List Char :=
  "var dot = 1\nclass Box\nend\nclass Dot end".toList

/-- On the first line of the text the first class is in scope. -/
theorem classLikes_are_visible_unless_inline_box :
    let tree := ScopeTree.build (Document.ofText twoClasses none)
    let table := collect (Document.ofText twoClasses none) tree
    ∃ d ∈ table.declarations, d.kind = .classLike ∧
      (∃ f g, d.body = some f.id ∧ tree.frame? f.id = some f ∧ tree.frameAt? 0 = some g ∧
        f.parent = some g.id ∧ f.inline = false) ∧
      table.visible? d.name 0 tree ≠ none ∧
        d.name ∈ (table.visibleNames 0 tree).map Declaration.name := by
  intro tree table
  have hread : ((table.declarations.find? fun d => d.kind == .classLike).bind fun d =>
      (d.body.bind tree.frame?).bind fun f => (tree.frameAt? 0).map fun g =>
        (d.body == some f.id, f.parent == some g.id, f.inline)) = some (true, true, false) := by
    decide +kernel
  obtain ⟨d, hd, hread⟩ := Option.bind_eq_some_iff.1 hread
  obtain ⟨f, hf, hread⟩ := Option.bind_eq_some_iff.1 hread
  obtain ⟨g, hg, hread⟩ := Option.map_eq_some_iff.1 hread
  simp only [Prod.mk.injEq, beq_iff_eq] at hread
  obtain ⟨hbody, hparent, hinline⟩ := hread
  rw [hbody, Option.bind_some] at hf
  have hmem := List.mem_of_find?_eq_some hd
  have hkind : d.kind = .classLike := by simpa using List.find?_some hd
  have hscope := classLikes_are_visible_unless_inline twoClasses none d hmem hkind f.id f hbody hf 0
    g hg hparent
  exact ⟨d, hmem, hkind, ⟨f, g, hbody, hf, hg, hparent, hinline⟩, hscope.1 hinline⟩

/-- A class on one line cannot be named on the next line, which is in the same block. -/
theorem inline_class_is_hidden :
    let doc := Document.ofText "class Box end\nvar b = 1".toList none
    let tree := ScopeTree.build doc
    let table := collect doc tree
    ∃ d ∈ table.declarations, d.kind = .classLike ∧
      (∃ f g, d.body = some f.id ∧ tree.frame? f.id = some f ∧ tree.frameAt? 1 = some g ∧
        f.parent = some g.id) ∧
      table.visible? d.name 1 tree = none ∧
        d.name ∉ (table.visibleNames 1 tree).map Declaration.name := by
  intro doc tree table
  have hread : (table.declarations[0]?.bind fun d => (d.body.bind tree.frame?).bind fun f =>
      (tree.frameAt? 1).map fun g =>
        (d.kind, d.body == some f.id, f.parent == some g.id,
          (table.visible? d.name 1 tree).isNone)) =
      some (.classLike, true, true, true) := by
    decide +kernel
  obtain ⟨d, hd, hread⟩ := Option.bind_eq_some_iff.1 hread
  obtain ⟨f, hf, hread⟩ := Option.bind_eq_some_iff.1 hread
  obtain ⟨g, hg, hread⟩ := Option.map_eq_some_iff.1 hread
  simp only [Prod.mk.injEq, beq_iff_eq, Option.isNone_iff_eq_none] at hread
  obtain ⟨hkind, hbody, hparent, hvisible⟩ := hread
  rw [hbody, Option.bind_some] at hf
  exact ⟨d, List.mem_of_getElem? hd, hkind, ⟨f, g, hbody, hf, hg, hparent⟩, hvisible,
    fun h => mem_names_iff.1 h hvisible⟩

end DeclarationTable

end Polyloft
