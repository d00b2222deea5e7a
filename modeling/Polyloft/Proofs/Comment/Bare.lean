import Polyloft.Proofs.BlankLine.Expression
import Polyloft.Proofs.Comment.Blank
import Polyloft.Rule

/-!
# Polyloft.Proofs.Comment.Bare

Documents without comments. The bare line has its code as text and its code tokens as tokens; a
blank line has spaces only. Scopes, declarations and types of a document are those of its bare lines
(`ScopeTree.build_bare`, `DeclarationTable.collect_bare`, `Analysis.declarationType_bare`), and what
is shown of a text outside of comments decides its bare lines (`Document.bare_ofText`).
-/

namespace Polyloft

open Polyloft.Text

/-! ### Lines -/

theorem stripEnd_of_all_isBlank {cs : List Char} (h : cs.all Text.isBlank = true) :
    stripEnd cs = [] := by
  rw [stripEnd]
  induction cs with
  | nil => rfl
  | cons c cs ih =>
      rw [List.all_cons, Bool.and_eq_true] at h
      rw [dropEndWhile_cons, if_pos ⟨ih h.2, h.1⟩]

namespace Line

/-- The line without its comments. -/
def bare (l : Line) : Line :=
  ⟨l.index, if l.isBlank then List.replicate l.text.length ' ' else l.code, l.codeTokens⟩

theorem foldl_blankComment_codeTokens (tokens : List Token) (cs : List Char) :
    (Polyloft.codeTokens tokens).foldl blankComment cs = cs := by
  induction tokens with
  | nil => rfl
  | cons t tokens ih =>
      by_cases h : t.kind = .comment
      · simpa [Polyloft.codeTokens, h] using ih
      · simpa [Polyloft.codeTokens, h, blankComment] using ih

theorem foldl_blankString_codeTokens (tokens : List Token) (cs : List Char) :
    (Polyloft.codeTokens tokens).foldl blankString cs = tokens.foldl blankString cs := by
  induction tokens generalizing cs with
  | nil => rfl
  | cons t tokens ih =>
      by_cases h : t.kind = .comment
      · simpa [Polyloft.codeTokens, h, blankString] using ih cs
      · simpa [Polyloft.codeTokens, h] using ih (blankString cs t)

variable (l : Line)

@[simp] theorem index_bare : l.bare.index = l.index := rfl

@[simp] theorem codeTokens_bare : l.bare.codeTokens = l.codeTokens := by
  simp [bare, codeTokens, Polyloft.codeTokens]

@[simp] theorem length_text_bare : l.bare.text.length = l.text.length := by
  rw [bare]
  dsimp only
  split
  · exact List.length_replicate
  · exact length_code l

theorem code_bare : l.bare.code = l.bare.text :=
  foldl_blankComment_codeTokens l.tokens l.bare.text

@[simp] theorem isBlank_bare : l.bare.isBlank = l.isBlank := by
  cases h : l.isBlank with
  | true =>
      rw [isBlank, code_bare, bare, h]
      simp [Text.isBlank]
  | false =>
      rw [isBlank, code_bare, bare, h]
      exact h

variable {l} in
theorem code_bare_of_not_isBlank (h : l.isBlank = false) : l.bare.code = l.code := by
  rw [code_bare, bare, h]
  rfl

variable {l} in
theorem masked_bare_of_not_isBlank (h : l.isBlank = false) : l.bare.masked = l.masked := by
  rw [masked, masked, code_bare_of_not_isBlank h]
  exact foldl_blankString_codeTokens l.tokens l.code

@[simp] theorem codeRange_bare : l.bare.codeRange = l.codeRange := by
  rw [codeRange, codeRange, index_bare]
  cases h : l.isBlank with
  | true =>
      have hbare : l.bare.isBlank = true := by rw [isBlank_bare, h]
      rw [Range.ofLine, Range.ofLine, stripEnd_of_all_isBlank h, stripEnd_of_all_isBlank hbare]
  | false => rw [code_bare_of_not_isBlank h]

/-- The bare line with a given number, from what is shown of it. -/
def ofShown (n : Nat) (shown : List (Option Char)) : Line :=
  ⟨n, if (blankHidden shown).all Text.isBlank then List.replicate shown.length ' '
    else blankHidden shown, (lexFrom n 0 (blankHidden shown)).1⟩

/-- What is shown of a line decides the bare line. -/
theorem bare_lexLine (text : List Char) (n : Nat) (inComment : Bool) :
    (Line.mk n text (lexLine text n inComment).1).bare =
      ofShown n ((Region.atStart inComment).scan text).1 := by
  have htokens := codeTokens_lexLine text n inComment
  rw [bare, ofShown, codeTokens, htokens, isBlank, Region.length_scan]
  rcases code_lexLine text n inComment with hcode | ⟨hcode, hshown⟩
  · rw [hcode]
  · rw [if_pos hcode, if_pos hshown]

end Line

theorem map_bare_linesFrom (n : Nat) (inComment : Bool) (texts : List (List Char)) :
    (linesFrom n inComment texts).map Line.bare =
      (shownLines inComment texts).mapIdx fun i shown => Line.ofShown (n + i) shown := by
  induction texts generalizing n inComment with
  | nil => rfl
  | cons text texts ih =>
      rw [linesFrom_cons, List.map_cons, Line.bare_lexLine, ih, snd_lexLine, shownLines,
        List.mapIdx_cons]
      simp only [Nat.add_assoc, Nat.add_comm 1, Nat.add_zero]

/-! ### Documents -/

/-- The document without its comments and its name. -/
def Document.bare (doc : Document) : Document :=
  ⟨doc.lines.map Line.bare, none⟩

@[simp] theorem Document.lines_bare (doc : Document) : doc.bare.lines = doc.lines.map Line.bare :=
  rfl

@[simp] theorem Document.size_bare (doc : Document) : doc.bare.size = doc.size :=
  List.length_map _

@[simp] theorem Document.codeTokens_bare (doc : Document) :
    doc.bare.codeTokens = doc.codeTokens := by
  rw [codeTokens, lines_bare, List.flatMap_map]
  simp only [Line.codeTokens_bare, codeTokens]

theorem Document.bare_ofText (text : List Char) (uri : Option String) :
    (ofText text uri).bare = ⟨(outsideComments text).mapIdx Line.ofShown, none⟩ := by
  rw [bare, lines_ofText, map_bare_linesFrom]
  simp only [Nat.zero_add, outsideComments]

theorem Document.lineAt_bare (doc : Document) (n : Nat) :
    doc.bare.lineAt n = Line.bare <$> doc.lineAt n := by
  rw [lineAt, lineAt, lines_bare, List.getElem?_map]
  cases doc.lines[n]? <;> rfl

theorem mapM_map_eq {α β γ : Type} (check : α → Except Fault β) (g : β → γ) (xs : List α) :
    xs.mapM (fun x => g <$> check x) = List.map g <$> xs.mapM check := by
  induction xs with
  | nil => rfl
  | cons x xs ih =>
      rw [List.mapM_cons, List.mapM_cons, ih]
      cases check x with
      | error fault => rfl
      | ok y => cases xs.mapM check <;> rfl

theorem Document.linesBetween_bare (doc : Document) (first last : Nat) :
    doc.bare.linesBetween first last = List.map Line.bare <$> doc.linesBetween first last := by
  rw [linesBetween, linesBetween, ← mapM_map_eq]
  congr 1
  exact funext doc.lineAt_bare

/-! ### Scopes and declarations -/

theorem ScopeTree.build_bare (doc : Document) : build doc.bare = build doc := by
  have hstep (b : ScopeBuilder) (l : Line) : b.step l.bare = b.step l := by
    simp only [ScopeBuilder.step, Line.codeTokens_bare, Line.index_bare]
  rw [build, build, Document.size_bare, Document.lines_bare, List.foldl_map]
  simp only [hstep]

/-- A line declares what its bare line does. -/
theorem Collect.addLine_bare (tree : ScopeTree) (table : DeclarationTable) (l : Line) :
    addLine tree table l.bare = addLine tree table l := by
  cases h : l.isBlank with
  | true => rw [addLine, addLine, Line.isBlank_bare, h, if_pos rfl, if_pos rfl]
  | false =>
      simp only [addLine, addUnworded, addVariable, classDecls, functionDecls, variableDecl,
        loopDecls, caughtDecls, memberDecls, paramsAfter, importStatement, parameterDecls, frameOf,
        bodyOf, ownerOf, Line.index_bare, Line.isBlank_bare, Line.masked_bare_of_not_isBlank h,
        Line.code_bare_of_not_isBlank h]

theorem DeclarationTable.collect_bare (doc : Document) (tree : ScopeTree) :
    collect doc.bare tree = collect doc tree := by
  rw [collect, collect, Document.lines_bare, List.foldl_map]
  simp only [Collect.addLine_bare]

/-! ### Expressions

The type of an expression is asked of scopes, declarations and the catalog, never of the lines. -/

/-- The analysis, with other lines. -/
def Analysis.over (a : Analysis) (doc : Document) : Analysis :=
  { a with document := doc }

namespace Expression

variable {m : Type → Type} [Monad m] (a : Analysis) (doc : Document) (f : Declaration → m Ty)

mutual

theorem methodType_over (method : String) (t : Ty) :
    methodType (a.over doc) f method t = methodType a f method t := by
  match t with
  | .any => rw [methodType, methodType]
  | .named name args =>
    rw [methodType, methodType]
    rfl
  | .union members => rw [methodType, methodType, methodTypes_over method members]

theorem methodTypes_over (method : String) (ts : List Ty) :
    methodTypes (a.over doc) f method ts = methodTypes a f method ts := by
  match ts with
  | [] => rw [methodTypes, methodTypes]
  | t :: ts => rw [methodTypes, methodTypes, methodType_over method t, methodTypes_over method ts]

end

theorem chain_over (current : Ty) (tokens : List Token) :
    chain (a.over doc) f current tokens = chain a f current tokens := by
  cases tokens with
  | nil => rw [chain, chain]
  | cons t ts =>
      rw [chain_cons, chain_cons]
      congr 1
      · -- A member, which may be called.
        cases ts with
        | nil => rfl
        | cons member more =>
            dsimp only
            rw [methodType_over]
            congr 1
            cases hafter : afterArguments? more with
            | none => rfl
            | some after =>
                have := afterArguments?_length hafter
                refine congrArg (methodType a f member.text current >>= ·) (funext fun next => ?_)
                exact chain_over next after
      · -- An index or a call of a value.
        cases hparts : group? (t :: ts) with
        | none => rfl
        | some g =>
            have := (group?_length hparts).2
            simp only [Option.elim_some, chain_over _ g.2]
termination_by tokens.length
decreasing_by
  all_goals simp only [List.length_cons] at *
  all_goals omega

variable [MonadLiftT (Except Fault) m]

mutual

theorem inferTokens_over [LawfulMonad m] (tokens : List Token) (line : Int) :
    inferTokens (a.over doc) f tokens line = inferTokens a f tokens line := by
  have hstrip := length_stripParens_le tokens
  rw [inferTokens_eq, inferTokens_eq, inferChain_over (stripParens tokens) line]
  by_cases hnone : splitTop isArithmeticOperator (stripParens tokens) = []
  · rw [hnone]
    rfl
  · have hparts : (operands isArithmeticOperator (stripParens tokens)).mapM
          (fun part => inferTokens (a.over doc) f part line) =
        (operands isArithmeticOperator (stripParens tokens)).mapM
          fun part => inferTokens a f part line := by
      refine mapM_congr_of_mem fun part hpart => ?_
      have := length_lt_of_mem_operands hpart hnone
      exact inferTokens_over part line
    rw [hparts]
termination_by 3 * tokens.length + 2

theorem inferChain_over [LawfulMonad m] (tokens : List Token) (line : Int) :
    inferChain (a.over doc) f tokens line = inferChain a f tokens line := by
  rw [inferChain, inferChain, inferPrimary_over tokens line]
  simp only [chain_over]
termination_by 3 * tokens.length + 1

theorem inferPrimary_over [LawfulMonad m] (tokens : List Token) (line : Int) :
    inferPrimary (a.over doc) f tokens line = inferPrimary a f tokens line := by
  cases tokens with
  | nil => rw [inferPrimary, inferPrimary]
  | cons first rest =>
      rw [inferPrimary_cons, inferPrimary_cons, inferChain_over rest line]
      -- What stands in brackets or parentheses is shorter.
      cases hparts : group? (first :: rest) with
      | none => rfl
      | some g =>
          have hinside := (group?_length hparts).1
          have helements : (splitCommas g.1).mapM
                (fun part => inferTokens (a.over doc) f part line) =
              (splitCommas g.1).mapM fun part => inferTokens a f part line := by
            refine mapM_congr_of_mem fun part hpart => ?_
            have := length_le_of_mem_splitCommas hpart
            exact inferTokens_over part line
          rw [Option.elim_some, Option.elim_some, Option.elim_some, helements,
            inferTokens_over g.1 line]
          rfl
termination_by 3 * tokens.length
decreasing_by
  all_goals simp only [List.length_cons] at *
  all_goals omega

end

theorem inferText_over [LawfulMonad m] (text : List Char) (line : Int) :
    inferText (a.over doc) f text line = inferText a f text line := by
  rw [inferText, inferText, inferTokens_over]

end Expression

/-! ### Types of declarations -/

namespace Analysis

/-- The analysis without comments. -/
def bare (a : Analysis) : Analysis :=
  a.over a.document.bare

variable (a : Analysis)

@[simp] theorem document_bare : a.bare.document = a.document.bare := rfl

@[simp] theorem tree_bare : a.bare.tree = a.tree := rfl

@[simp] theorem table_bare : a.bare.table = a.table := rfl

@[simp] theorem catalog_bare : a.bare.catalog = a.catalog := rfl

theorem ownLines_bare (body : Frame) :
    a.bare.ownLines body = List.map Line.bare <$> a.ownLines body := by
  rw [ownLines, ownLines, document_bare, tree_bare, Document.size_bare, Document.linesBetween_bare]
  cases a.document.linesBetween body.start (body.stop.getD (a.document.size - 1)) with
  | error fault => rfl
  | ok lines => exact congrArg Except.ok List.filter_map

/-- A function returns what it does without comments. -/
theorem ownReturns_bare (body : Frame) : a.bare.ownReturns body = a.ownReturns body := by
  rw [ownReturns, ownReturns, ownLines_bare]
  cases a.ownLines body with
  | error fault => rfl
  | ok lines =>
      refine congrArg Except.ok ?_
      rw [List.flatMap_map]
      simp only [Line.codeTokens_bare, Line.index_bare]

section

variable {m : Type → Type} [Monad m] [LawfulMonad m] [MonadLiftT (Except Fault) m]
  (f : Declaration → m Ty)

theorem returnedType_over (doc : Document) (returns : List (List Token × Nat)) :
    (a.over doc).returnedType f returns = a.returnedType f returns := by
  simp only [returnedType, Expression.inferTokens_over]

theorem initialType_over (doc : Document) (d : Declaration) :
    (a.over doc).initialType f d = a.initialType f d := by
  simp only [initialType, Expression.inferText_over]

end

section

variable {a} {free : List DeclarationKey} {d : Declaration}
  (hinside : d.key ∈ free → ∀ e, a.bare.declarationTypeIn (withoutKey free d.key) e =
    a.declarationTypeIn (withoutKey free d.key) e)
include hinside

theorem returnTypeIn_bare : a.bare.returnTypeIn free d = a.returnTypeIn free d := by
  have hbody : a.bare.functionBody? d = a.functionBody? d := rfl
  rw [returnTypeIn, returnTypeIn, hbody]
  cases a.functionBody? d with
  | none => rfl
  | some body =>
      refine congrArg (Infer.memo >>= ·) (funext fun memo => ?_)
      cases memo.returned.lookup d.key with
      | some t => rfl
      | none =>
          by_cases hkey : d.key ∈ free
          · simp only [dif_pos hkey, ownReturns_bare, hinside hkey]
            rw [bare]
            simp only [returnedType_over]
          · simp only [dif_neg hkey]

theorem variableTypeIn_bare : a.bare.variableTypeIn free d = a.variableTypeIn free d := by
  rw [variableTypeIn, variableTypeIn]
  refine congrArg (Infer.memo >>= ·) (funext fun memo => ?_)
  cases memo.declared.lookup d.key with
  | some t => rfl
  | none =>
      by_cases hkey : d.key ∈ free
      · simp only [dif_pos hkey, hinside hkey]
        rw [bare, initialType_over]
      · simp only [dif_neg hkey]

end

theorem declarationTypeIn_bare (free : List DeclarationKey) (d : Declaration) :
    a.bare.declarationTypeIn free d = a.declarationTypeIn free d := by
  induction hn : free.length using Nat.strongRecOn generalizing free d with
  | ind n ih =>
      subst hn
      have hinside (d : Declaration) (hkey : d.key ∈ free) (e : Declaration) :
          a.bare.declarationTypeIn (withoutKey free d.key) e =
            a.declarationTypeIn (withoutKey free d.key) e :=
        ih _ (length_withoutKey_lt hkey) _ e rfl
      rw [declarationTypeIn, declarationTypeIn]
      simp only [returnTypeIn_bare (hinside _), variableTypeIn_bare (hinside _)]

/-- A declaration has the type that it has without comments. -/
theorem declarationType_bare : a.bare.declarationType = a.declarationType :=
  funext fun d => a.declarationTypeIn_bare a.table.keys d

theorem inferTokens_bare (tokens : List Token) (line : Int) :
    a.bare.inferTokens tokens line = a.inferTokens tokens line := by
  rw [inferTokens, inferTokens, declarationType_bare]
  exact Expression.inferTokens_over a a.document.bare _ tokens line

theorem infer_bare (text : List Char) (line : Int) :
    a.bare.infer text line = a.infer text line := by
  rw [infer, infer, declarationType_bare]
  exact Expression.inferText_over a a.document.bare _ text line

end Analysis

end Polyloft
