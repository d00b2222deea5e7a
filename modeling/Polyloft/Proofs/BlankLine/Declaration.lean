import Polyloft.Analysis
import Polyloft.Proofs.BlankLine.Scope
import Polyloft.Proofs.Declaration.Lineage

/-!
# Polyloft.Proofs.BlankLine.Declaration

The declarations of a document with one more, empty line: they are the old ones, moved
(`DeclarationTable.collect_moved`). A declaration lives in the frame with the same number, so a name
means the same declaration on a line and on the line that it becomes (`visible?_moved`), and members
and parents are found as before.
-/

namespace Polyloft

open Polyloft.Text

/-! ### Moved declarations -/

/-- The declaration on the line that its line becomes. -/
def Declaration.moved (k : Nat) (d : Declaration) : Declaration :=
  { d with line := movedLine k d.line }

def DeclarationKey.moved (k : Nat) (key : DeclarationKey) : DeclarationKey :=
  { key with line := movedLine k key.line }

def ImportedSymbol.moved (k : Nat) (s : ImportedSymbol) : ImportedSymbol :=
  { s with line := movedLine k s.line }

def ImportStatement.moved (k : Nat) (i : ImportStatement) : ImportStatement :=
  ⟨i.module, movedLine k i.line, i.symbols.map (ImportedSymbol.moved k)⟩

def StackedDeclarators.moved (k : Nat) (s : StackedDeclarators) : StackedDeclarators :=
  { s with line := movedLine k s.line }

/-- The table on the lines that its lines become. -/
def DeclarationTable.moved (k : Nat) (table : DeclarationTable) : DeclarationTable :=
  { declarations := table.declarations.map (Declaration.moved k)
    imports := table.imports.map (ImportStatement.moved k)
    stacked := table.stacked.map (StackedDeclarators.moved k) }

namespace Declaration

variable (k : Nat) (d : Declaration)

@[simp] theorem name_moved : (d.moved k).name = d.name := rfl

@[simp] theorem form_moved : (d.moved k).form = d.form := rfl

@[simp] theorem kind_moved : (d.moved k).kind = d.kind := rfl

@[simp] theorem isVariable_moved : (d.moved k).isVariable = d.isVariable := rfl

@[simp] theorem isConstant_moved : (d.moved k).isConstant = d.isConstant := rfl

@[simp] theorem line_moved : (d.moved k).line = movedLine k d.line := rfl

@[simp] theorem declaredType_moved : (d.moved k).declaredType = d.declaredType := rfl

@[simp] theorem initializer_moved : (d.moved k).initializer = d.initializer := rfl

@[simp] theorem owner_moved : (d.moved k).owner = d.owner := rfl

@[simp] theorem key_moved : (d.moved k).key = d.key.moved k := rfl

/-- A declaration reaches the same lines. -/
theorem reaches_moved (n : Nat) : (d.moved k).reaches (movedLine k n : Nat) = d.reaches n := by
  have hlt : ((movedLine k n : Nat) : Int) < (movedLine k d.line : Nat) ↔ (n : Int) < d.line := by
    rw [Int.ofNat_lt, Int.ofNat_lt, movedLine_lt_iff]
  simp only [reaches, isVariable_moved, line_moved, hlt]

end Declaration

/-- Keys are not confused. -/
theorem DeclarationKey.moved_inj {k : Nat} {key key' : DeclarationKey} :
    key.moved k = key'.moved k ↔ key = key' := by
  obtain ⟨name, line, column⟩ := key
  obtain ⟨name', line', column'⟩ := key'
  simp [DeclarationKey.moved]

/-! ### Collecting -/

namespace Collect

variable {k : Nat} {tree tree' : ScopeTree}

theorem parameterDecls_moved (line : Line) (params : List Parameter) (form : DeclarationForm)
    (body : Nat) (owner : Option String) :
    parameterDecls (line.moved k) params form body owner =
      (parameterDecls line params form body owner).map (Declaration.moved k) := by
  rw [parameterDecls, parameterDecls, List.map_map]
  rfl

theorem paramsAfter_moved (line : Line) (column : Nat) :
    paramsAfter (line.moved k) column = paramsAfter line column := by
  simp only [paramsAfter, Line.masked_moved, Line.code_moved]

theorem importStatement_moved (line : Line) (path inner : Span) :
    importStatement (line.moved k) path inner = (importStatement line path inner).moved k := by
  simp only [importStatement, ImportStatement.moved, Line.masked_moved, Line.code_moved,
    Line.index_moved, List.map_filterMap]
  congr 2
  funext piece
  split <;> rfl

variable (h : tree.Moved k tree') (line : Line)
include h

theorem frameOf_moved : frameOf tree' (line.moved k) = frameOf tree line :=
  congrArg (Option.getD · 0) (map_eq_of_outline (h.frameAt? line.index) Frame.id fun _ _ => rfl)

theorem bodyOf_moved : bodyOf tree' (line.moved k) = bodyOf tree line :=
  h.openedAt? line.index

theorem ownerOf_moved : ownerOf tree' (line.moved k) = ownerOf tree line := by
  rw [ownerOf, ownerOf, Line.index_moved]
  rcases Frame.cases_outline (h.frameAt? line.index) with ⟨hf, hf'⟩ | ⟨f, f', hf, hf', hsame⟩
  · rw [hf, hf']
    rfl
  · have hinline := Frame.congr_outline hsame Frame.inline fun _ _ => rfl
    have hparent := Frame.congr_outline hsame Frame.parent fun _ _ => rfl
    rw [hf, hf']
    dsimp only [Option.bind_some]
    rw [hinline, hparent]
    -- The owner is read from the outline of the frame, or of the one around it.
    have howner {o o' : Option Frame}
        (ho : o'.map (Frame.outline id) = o.map (Frame.outline (movedLine k))) :
        (o'.bind fun f => if f.kind == .classLike || f.kind == .interface then f.name else none) =
          o.bind fun f =>
            if f.kind == .classLike || f.kind == .interface then f.name else none := by
      rcases Frame.cases_outline ho with ⟨rfl, rfl⟩ | ⟨f, f', rfl, rfl, hf⟩
      · rfl
      · exact Frame.congr_outline hf
          (fun f => if f.kind == .classLike || f.kind == .interface then f.name else none)
          fun _ _ => rfl
    split
    · refine howner ?_
      cases f.parent with
      | none => rfl
      | some p => exact h.frame? p
    · exact howner (congrArg some hsame)

theorem functionDecls_moved (form : DeclarationForm) (name : Span) :
    functionDecls tree' (line.moved k) form name =
      (functionDecls tree line form name).map (Declaration.moved k) := by
  unfold functionDecls
  simp only [paramsAfter_moved, bodyOf_moved h, frameOf_moved h, ownerOf_moved h,
    Line.masked_moved, Line.index_moved, parameterDecls_moved]
  cases bodyOf tree line <;> rfl

theorem classDecls_moved (word : String) (name : Span) :
    classDecls tree' (line.moved k) word name =
      (classDecls tree line word name).map (Declaration.moved k) := by
  unfold classDecls
  simp only [paramsAfter_moved, bodyOf_moved h, frameOf_moved h, ownerOf_moved h,
    Line.masked_moved, Line.code_moved, Line.index_moved, parameterDecls_moved]
  cases bodyOf tree line <;> rfl

theorem variableDecl_moved (v : Shape.Variable) :
    variableDecl tree' (line.moved k) v = (variableDecl tree line v).moved k := by
  simp only [variableDecl, Declaration.moved, frameOf_moved h, ownerOf_moved h, Line.masked_moved,
    Line.code_moved, Line.index_moved]

theorem loopDecls_moved (l : Shape.Loop) :
    loopDecls tree' (line.moved k) l = (loopDecls tree line l).map (Declaration.moved k) := by
  unfold loopDecls
  simp only [bodyOf_moved h, Line.masked_moved, Line.code_moved, Line.index_moved]
  cases bodyOf tree line with
  | none => rfl
  | some body => cases l.second <;> rfl

/-- The branch that a line starts. -/
theorem branch_moved :
    ((tree'.frameAt? (movedLine k line.index : Nat)).bind fun f =>
        (tree'.children f.id).find? fun c => c.start == movedLine k line.index).map Frame.id =
      ((tree.frameAt? line.index).bind fun f =>
        (tree.children f.id).find? fun c => c.start == line.index).map Frame.id := by
  rcases Frame.cases_outline (h.frameAt? line.index) with ⟨hf, hf'⟩ | ⟨f, f', hf, hf', hsame⟩
  · rw [hf, hf']
    rfl
  · have hid := Frame.congr_outline hsame Frame.id fun _ _ => rfl
    rw [hf, hf', Option.bind_some, Option.bind_some, hid]
    exact h.branchAt? f.id line.index

theorem caughtDecls_moved (name : Span) (type : Option Span) :
    caughtDecls tree' (line.moved k) name type =
      (caughtDecls tree line name type).map (Declaration.moved k) := by
  have hbranch := branch_moved h line
  unfold caughtDecls
  simp only [Line.masked_moved, Line.index_moved]
  cases hfound : (tree.frameAt? line.index).bind fun f =>
      (tree.children f.id).find? fun c => c.start == line.index with
  | none =>
      rw [hfound, Option.map_none, Option.map_eq_none_iff] at hbranch
      rw [hbranch]
      rfl
  | some f =>
      rw [hfound] at hbranch
      obtain ⟨f', hf', hid⟩ := Option.map_eq_some_iff.1 hbranch
      rw [hf']
      dsimp only
      rw [hid]
      rfl

theorem memberDecls_moved :
    memberDecls tree' (line.moved k) = (memberDecls tree line).map (Declaration.moved k) := by
  unfold memberDecls
  simp only [Line.masked_moved, Line.index_moved, paramsAfter_moved]
  rcases Frame.cases_outline (h.frameAt? line.index) with ⟨hf, hf'⟩ | ⟨f, f', hf, hf', hsame⟩
  · rw [hf, hf']
    rfl
  · have hid := Frame.congr_outline hsame Frame.id fun _ _ => rfl
    have hname := Frame.congr_outline hsame Frame.name fun _ _ => rfl
    have hconstruct := Frame.congr_outline hsame Frame.construct fun _ _ => rfl
    have hkind := Frame.congr_outline hsame Frame.kind fun _ _ => rfl
    rw [hf, hf']
    simp only [hid, hname, hconstruct, hkind]
    cases f.name with
    | none => rfl
    | some owner =>
        dsimp only
        split
        · rw [List.map_map]
          rfl
        · split
          · rw [List.map_map]
            rfl
          · rfl

omit h in
theorem add_moved (table : DeclarationTable) (ds : List Declaration) :
    add (table.moved k) (ds.map (Declaration.moved k)) = (add table ds).moved k := by
  simp [add, DeclarationTable.moved]

theorem addVariable_moved (table : DeclarationTable) (v : Shape.Variable) :
    addVariable tree' (line.moved k) (table.moved k) v =
      (addVariable tree line table v).moved k := by
  unfold addVariable
  split
  · rw [variableDecl_moved h]
    exact add_moved table [_]
  · simp [DeclarationTable.moved, StackedDeclarators.moved]

theorem addUnworded_moved (table : DeclarationTable) :
    addUnworded tree' (line.moved k) (table.moved k) = (addUnworded tree line table).moved k := by
  unfold addUnworded
  rw [Line.masked_moved]
  split
  · rw [loopDecls_moved h, add_moved]
  · split
    · rw [caughtDecls_moved h, add_moved]
    · split
      · split
        · rw [functionDecls_moved h, add_moved]
        · rw [memberDecls_moved h, add_moved]
      · rw [memberDecls_moved h, add_moved]

/-- A line adds the same declarations, moved. -/
theorem addLine_moved (table : DeclarationTable) :
    addLine tree' (table.moved k) (line.moved k) = (addLine tree table line).moved k := by
  unfold addLine
  rw [Line.masked_moved, Line.isBlank_moved]
  split
  · rfl
  · split
    · rw [importStatement_moved]
      simp [DeclarationTable.moved]
    · split
      · rw [classDecls_moved h, add_moved]
      · split
        · rw [functionDecls_moved h, add_moved]
        · split
          · exact addVariable_moved h line table _
          · exact addUnworded_moved h line table

omit h line in
/-- An empty line declares nothing. -/
theorem addLine_empty (tree : ScopeTree) (table : DeclarationTable) (n : Nat) :
    addLine tree table (Line.empty n) = table := by
  rw [addLine, Line.isBlank_empty, if_pos rfl]

omit line in
theorem foldl_addLine_moved {ls ls' : List Line} (hspread : Spread k ls ls')
    (table : DeclarationTable) :
    ls'.foldl (addLine tree') (table.moved k) = (ls.foldl (addLine tree) table).moved k := by
  induction hspread generalizing table with
  | nil => rfl
  | line l _ ih => rw [List.foldl_cons, List.foldl_cons, addLine_moved h, ih]
  | empty n _ ih => rw [List.foldl_cons, addLine_empty, ih]

end Collect

/-- The declarations of a document with one more, empty line. -/
theorem DeclarationTable.collect_moved {k : Nat} {doc doc' : Document} {tree tree' : ScopeTree}
    (hdoc : Document.Spaced k doc doc') (h : tree.Moved k tree') :
    collect doc' tree' = (collect doc tree).moved k :=
  Collect.foldl_addLine_moved h hdoc.spread {}

/-! ### Look-ups -/

namespace DeclarationTable

variable (k : Nat) (table : DeclarationTable)

/-- The first declaration that satisfies a condition that has nothing to do with lines. -/
theorem find?_moved (p : Declaration → Bool) (hp : ∀ d : Declaration, p (d.moved k) = p d) :
    (table.moved k).declarations.find? p =
      (table.declarations.find? p).map (Declaration.moved k) := by
  rw [moved, List.find?_map, show p ∘ Declaration.moved k = p from funext hp]

theorem filter_moved (p : Declaration → Bool) (hp : ∀ d : Declaration, p (d.moved k) = p d) :
    (table.moved k).declarations.filter p =
      (table.declarations.filter p).map (Declaration.moved k) := by
  rw [moved, List.filter_map, show p ∘ Declaration.moved k = p from funext hp]

theorem lookup?_moved (name : String) :
    (table.moved k).lookup? name = (table.lookup? name).map (Declaration.moved k) :=
  table.find?_moved k _ fun _ => rfl

theorem classLike?_moved (name : String) :
    (table.moved k).classLike? name = (table.classLike? name).map (Declaration.moved k) :=
  table.find?_moved k _ fun _ => rfl

theorem member?_moved (owner name : String) :
    (table.moved k).member? owner name = (table.member? owner name).map (Declaration.moved k) :=
  table.find?_moved k _ fun _ => rfl

theorem inFrame_moved (frame : Nat) :
    (table.moved k).inFrame frame = (table.inFrame frame).map (Declaration.moved k) :=
  table.filter_moved k _ fun _ => rfl

theorem enumValues_moved (owner : String) :
    (table.moved k).enumValues owner = (table.enumValues owner).map (Declaration.moved k) := by
  rw [enumValues, enumValues, members, members, filter_moved k _ _ fun _ => rfl, List.filter_map]
  rfl

/-- The names of the parents are the same. -/
theorem lineageFrom_moved (seen : List String) (name : String) :
    (table.moved k).lineageFrom seen name = table.lineageFrom seen name := by
  have hmoved {name : String} {d : Declaration} (h : table.classLike? name = some d) :
      (table.moved k).classLike? name = some (d.moved k) := by
    rw [classLike?_moved, h, Option.map_some]
  fun_induction lineageFrom table seen name with
  | case1 seen name hname =>
      rw [lineageFrom_of_mem hname]
  | case2 seen name hname hnone =>
      rw [lineageFrom_of_undeclared hname (by rw [classLike?_moved, hnone, Option.map_none])]
  | case3 seen name hname d hd hlt hparent =>
      rw [lineageFrom_of_root hname (hmoved hd) hparent]
  | case4 seen name hname d hd hlt parent hparent ih =>
      rw [lineageFrom_of_parent hname (hmoved hd) hparent, ih]

theorem classLikes_moved (name : String) :
    (table.moved k).classLikes name = (table.classLikes name).map (Declaration.moved k) := by
  rw [classLikes, classLikes, lineage, lineage, lineageFrom_moved, List.map_filterMap]
  congr 1
  funext c
  exact table.classLike?_moved k c

end DeclarationTable

/-- The declared member on the line that its line becomes. -/
def MemberSource.moved (k : Nat) : MemberSource → MemberSource
  | .declared d => .declared (d.moved k)
  | .builtin t => .builtin t

namespace DeclarationTable

variable (k : Nat) (table : DeclarationTable)

theorem ownMember?_moved (owner : Declaration) (name : String) :
    (table.moved k).ownMember? (owner.moved k) name =
      (table.ownMember? owner name).map (MemberSource.moved k) := by
  have hfilter : ((table.moved k).member? owner.name name).filter (·.form != .enumValue) =
      ((table.member? owner.name name).filter (·.form != .enumValue)).map
        (Declaration.moved k) := by
    rw [member?_moved, Option.filter_map]
    rfl
  simp only [ownMember?, Declaration.name_moved, Declaration.form_moved, hfilter]
  cases (table.member? owner.name name).filter (·.form != .enumValue) with
  | some d => rfl
  | none =>
      -- What every value of an enumeration has is no declaration.
      by_cases henum : owner.form == .enumType
      · by_cases hname : name == "name"
        · simp [henum, hname, MemberSource.moved]
        · by_cases hordinal : name == "ordinal" <;>
            simp [henum, hname, hordinal, MemberSource.moved]
      · simp [henum]

theorem memberSource?_moved (owner name : String) :
    (table.moved k).memberSource? owner name =
      (table.memberSource? owner name).map (MemberSource.moved k) := by
  rw [memberSource?_eq_findSome?, memberSource?_eq_findSome?, classLikes_moved,
    List.findSome?_map, List.map_findSome?]
  congr 1
  funext c
  exact table.ownMember?_moved k c name

/-- Of the declarations in one frame, the same one is meant. -/
theorem chosen_moved (name : String) (n : Nat) (ds : List Declaration) :
    chosen name (movedLine k n : Nat) (ds.map (Declaration.moved k)) =
      (chosen name n ds).map (Declaration.moved k) := by
  -- A variable takes the place of what was found before it, so the fold is not a search.
  have hfold (found : Option Declaration) :
      (ds.map (Declaration.moved k)).foldl
        (fun found d => if d.name == name && d.reaches (movedLine k n : Nat) &&
          (found.isNone || d.isVariable) then some d else found)
        (found.map (Declaration.moved k)) =
      (ds.foldl (fun found d => if d.name == name && d.reaches n &&
        (found.isNone || d.isVariable) then some d else found) found).map
          (Declaration.moved k) := by
    induction ds generalizing found with
    | nil => rfl
    | cons d ds ih =>
        rw [List.map_cons, List.foldl_cons, List.foldl_cons, ← ih]
        congr 1
        simp only [Declaration.name_moved, Declaration.reaches_moved, Declaration.isVariable_moved,
          Option.isNone_map]
        split <;> rfl
  exact hfold none

/-- A name means the same declaration on a line and on the line that it becomes. -/
theorem visible?_moved {tree tree' : ScopeTree} (h : tree.Moved k tree') (name : String) (n : Nat) :
    (table.moved k).visible? name (movedLine k n : Nat) tree' =
      (table.visible? name n tree).map (Declaration.moved k) := by
  have hids := (h.around n).map Frame.id fun _ _ => rfl
  have heq (table : DeclarationTable) (line : Int) (tree : ScopeTree) :
      table.visible? name line tree =
        ((tree.around line).map Frame.id).findSome?
          fun i => chosen name line (table.inFrame i) := by
    rw [List.findSome?_map]
    rfl
  rw [heq, heq, hids, List.map_findSome?]
  congr 1
  funext i
  rw [Function.comp_apply, inFrame_moved, chosen_moved]

end DeclarationTable

end Polyloft
