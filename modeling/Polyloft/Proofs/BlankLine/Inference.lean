import Polyloft.Proofs.BlankLine.Expression
import Polyloft.Proofs.Inference.Stable

/-!
# Polyloft.Proofs.BlankLine.Inference

The types of declarations in a document with one more, empty line. Inference takes the same steps on
both documents and remembers the same types, under keys that move. The lines of a function need a
word: they are read from its first to its last line, and the last line does not simply move. But
only lines whose innermost function is the function itself count, and these lie between the two
anyway, so they can be taken from the whole document (`IsRead.ownLines_eq`).
-/

namespace Polyloft

/-! ### Lines of a document -/

/-- Lines that the document has are read without a fault. -/
theorem Document.linesBetween_eq {doc : Document} (first : Nat) {last : Nat}
    (h : last < doc.size) :
    doc.linesBetween first last = .ok ((doc.lines.drop first).take (last + 1 - first)) := by
  have hread (n first : Nat) (hn : n = 0 ∨ first + n ≤ doc.size) :
      (List.range' first n).mapM doc.lineAt = .ok ((doc.lines.drop first).take n) := by
    induction n generalizing first with
    | zero => rfl
    | succ n ih =>
        have hfirst : first < doc.lines.length := by
          rw [← Document.size]
          omega
        have hline : doc.lineAt first = .ok (doc.lines.get ⟨first, hfirst⟩) := by
          rw [Document.lineAt, List.getElem?_eq_getElem hfirst]
          rfl
        rw [List.range'_succ, List.mapM_cons, hline, ih (first + 1) (by omega),
          List.drop_eq_getElem_cons hfirst, List.take_succ_cons]
        rfl
  exact hread _ first (by omega)

/-- Nothing is lost by filtering a part that holds all that is looked for. -/
theorem filter_take_drop {α : Type} {xs : List α} {p : α → Bool} {m n : Nat}
    (h : ∀ i x, xs[i]? = some x → p x = true → m ≤ i ∧ i < m + n) :
    ((xs.drop m).take n).filter p = xs.filter p := by
  have hbefore : (xs.take m).filter p = [] := by
    rw [List.filter_eq_nil_iff]
    intro x hx hp
    obtain ⟨i, hi, rfl⟩ := List.mem_take_iff_getElem.1 hx
    have := h i _ (List.getElem?_eq_getElem (by omega)) hp
    omega
  have hafter : ((xs.drop m).drop n).filter p = [] := by
    rw [List.filter_eq_nil_iff, List.drop_drop]
    intro x hx hp
    obtain ⟨i, hi, rfl⟩ := List.mem_drop_iff_getElem.1 hx
    have := h (m + n + i) _ (List.getElem?_eq_getElem (by omega)) hp
    omega
  calc ((xs.drop m).take n).filter p
      = (xs.take m).filter p ++ (((xs.drop m).take n).filter p ++
          ((xs.drop m).drop n).filter p) := by
        rw [hbefore, hafter, List.nil_append, List.append_nil]
    _ = xs.filter p := by
        rw [← List.filter_append, List.take_append_drop, ← List.filter_append,
          List.take_append_drop]

namespace Analysis

/-- Does a line belong to the function itself? -/
def isOwnLine (a : Analysis) (body : Frame) (line : Line) : Bool :=
  (a.tree.functionAt? line.index).any (·.id == body.id)

/-- Frames are told apart by their numbers, so a line belongs to a function if the innermost
function there is this one. -/
theorem IsRead.isOwnLine_eq {a : Analysis} (ha : a.IsRead) {i : Nat} {body : Frame}
    (hbody : a.tree.frame? i = some body) (line : Line) :
    a.isOwnLine body line = decide (a.tree.functionAt? line.index = some body) := by
  have hshape := ScopeTree.wellFormed_of_isNumbered ha.isNumbered
  rw [← ha.tree_eq] at hshape
  rw [isOwnLine]
  cases hat : a.tree.functionAt? line.index with
  | none => rfl
  | some f =>
      obtain ⟨j, hj⟩ := ScopeTree.exists_frame_of_mem_around (List.mem_of_find?_eq_some hat)
      have hsame : f.id = body.id ↔ f = body := by
        constructor
        · intro hid
          rw [hshape.id_eq hj, hshape.id_eq hbody] at hid
          rw [hid, hbody] at hj
          exact (Option.some.inj hj).symm
        · exact congrArg Frame.id
      rw [Option.any_some, Bool.eq_iff_iff, beq_iff_eq, decide_eq_true_iff, Option.some.injEq,
        hsame]

/-- The lines of a function lie between its first and its last line. -/
theorem IsRead.between_of_isOwnLine {a : Analysis} (ha : a.IsRead) {i n : Nat} {body : Frame}
    (hbody : a.tree.frame? i = some body) {line : Line} (hline : a.document.lines[n]? = some line)
    (hown : a.isOwnLine body line = true) :
    body.start ≤ n ∧ n ≤ body.stop.getD (a.document.size - 1) := by
  rw [ha.isOwnLine_eq hbody, decide_eq_true_iff, ha.isNumbered.index_eq hline, ha.tree_eq] at hown
  have hn : n < a.document.size := (List.getElem?_eq_some_iff.1 hline).1
  have hbetween :=
    ScopeTree.encloses_of_mem_around ha.isNumbered (List.mem_of_find?_eq_some hown)
  rw [Frame.encloses, Bool.and_eq_true, decide_eq_true_eq] at hbetween
  refine ⟨by omega, ?_⟩
  cases hstop : body.stop with
  | none =>
      rw [Option.getD_none]
      omega
  | some stop =>
      rw [hstop, decide_eq_true_eq] at hbetween
      rw [Option.getD_some]
      omega

/-- The lines of a function, taken from the whole document. -/
theorem IsRead.ownLines_eq {a : Analysis} (ha : a.IsRead) {i : Nat} {body : Frame}
    (hbody : a.tree.frame? i = some body) :
    a.ownLines body = .ok (a.document.lines.filter (a.isOwnLine body)) := by
  rw [ownLines, Document.linesBetween_eq _ (ha.stop_lt hbody).2]
  refine congrArg Except.ok ?_
  refine filter_take_drop ?_
  intro n line hline hown
  have hbetween := ha.between_of_isOwnLine hbody hline hown
  omega

/-! ### What a function returns -/

/-- A returned expression and its line, moved. -/
def movedReturn (k : Nat) (r : List Token × Nat) : List Token × Nat :=
  (r.1.map (Token.moved k), movedLine k r.2)

theorem returnsOf_moved (k : Nat) (tokens : List Token) :
    returnsOf (tokens.map (Token.moved k)) = (returnsOf tokens).map (List.map (Token.moved k)) := by
  induction tokens with
  | nil => rfl
  | cons t ts ih =>
      rw [List.map_cons, returnsOf, returnsOf, Token.isKeyword_moved, trimStatement_moved, ih]
      split <;> rfl

theorem exists_frame_of_functionBody? {a : Analysis} {d : Declaration} {body : Frame}
    (h : a.functionBody? d = some body) : ∃ i, a.tree.frame? i = some body := by
  obtain ⟨h, -⟩ := Option.filter_eq_some_iff.1 h
  obtain ⟨i, -, hi⟩ := Option.bind_eq_some_iff.1 h
  exact ⟨i, hi⟩

namespace Moved

variable {k : Nat} {a a' : Analysis} (h : a.Moved k a')
include h

theorem functionBody? (d : Declaration) :
    (a'.functionBody? (d.moved k)).map (Frame.outline id) =
      (a.functionBody? d).map (Frame.outline (movedLine k)) := by
  -- The body has the same number, and the kind that is asked for is part of the outline.
  have hframe : ((d.moved k).body.bind a'.tree.frame?).map (Frame.outline id) =
      (d.body.bind a.tree.frame?).map (Frame.outline (movedLine k)) := by
    show (d.body.bind a'.tree.frame?).map (Frame.outline id) = _
    cases d.body with
    | none => rfl
    | some i => exact h.tree.frame? i
  have hfilter := congrArg (Option.filter fun f => f.kind == .function) hframe
  rw [Option.filter_map, Option.filter_map] at hfilter
  exact hfilter

theorem isOwnLine {body body' : Frame} (hid : body'.id = body.id) (line : Line) :
    a'.isOwnLine body' (line.moved k) = a.isOwnLine body line := by
  have hfunction := congrArg (Option.any (· == body.id)) (h.tree.functionAt? line.index)
  rw [Option.any_map, Option.any_map] at hfunction
  rw [Analysis.isOwnLine, Analysis.isOwnLine, hid]
  exact hfunction

/-- The function returns the same expressions, moved. -/
theorem ownReturns (ha : a.IsRead) (ha' : a'.IsRead) {i i' : Nat} {body body' : Frame}
    (hbody : a.tree.frame? i = some body) (hbody' : a'.tree.frame? i' = some body')
    (hid : body'.id = body.id) :
    ∃ returns, a.ownReturns body = .ok returns ∧
      a'.ownReturns body' = .ok (returns.map (movedReturn k)) := by
  have hspread := h.document.spread.filter fun line => h.isOwnLine hid line
  have hreturns := hspread.flatMap
    (f := fun line => (returnsOf line.codeTokens).map (·, line.index))
    (g := fun line => (returnsOf line.codeTokens).map (·, line.index)) (m := movedReturn k)
    (by
      intro line _
      rw [Line.codeTokens_moved, returnsOf_moved, List.map_map, List.map_map]
      rfl)
    fun _ => rfl
  rw [Analysis.ownReturns, Analysis.ownReturns, ha.ownLines_eq hbody, ha'.ownLines_eq hbody']
  exact ⟨_, rfl, congrArg Except.ok hreturns⟩

variable {m : Type → Type} [Monad m] [LawfulMonad m] [MonadLiftT (Except Fault) m]
  (f : Declaration → m Ty)

theorem returnedType (returns : List (List Token × Nat)) :
    a'.returnedType f (returns.map (movedReturn k)) =
      a.returnedType (fun d => f (d.moved k)) returns := by
  rw [Analysis.returnedType, Analysis.returnedType, List.mapM_map]
  congr 2
  funext r
  show (if (r.1.map (Token.moved k)).isEmpty then _ else
    Expression.inferTokens a' f (r.1.map (Token.moved k)) (movedLine k r.2 : Nat)) = _
  rw [List.isEmpty_map, Expression.inferTokens_moved f h]

theorem initialType (d : Declaration) :
    a'.initialType f (d.moved k) = a.initialType (fun e => f (e.moved k)) d := by
  have htext (text : String) : Expression.inferText a' f text.toList (d.moved k).line =
      Expression.inferText a (fun e => f (e.moved k)) text.toList d.line :=
    Expression.inferText_moved f h text.toList d.line
  unfold Analysis.initialType
  rw [Declaration.form_moved, Declaration.owner_moved, Declaration.initializer_moved]
  split
  · rfl
  · rw [htext]
  · rfl
  · rw [htext]
  · rfl

end Moved

end Analysis

/-! ### What is remembered -/

/-- What is remembered, under the keys that its keys become. -/
def Memo.moved (k : Nat) (memo : Memo) : Memo :=
  ⟨memo.declared.map fun e => (e.1.moved k, e.2), memo.returned.map fun e => (e.1.moved k, e.2)⟩

theorem lookup_moved (k : Nat) (log : List (DeclarationKey × Ty)) (key : DeclarationKey) :
    (log.map fun e => (e.1.moved k, e.2)).lookup (key.moved k) = log.lookup key := by
  induction log with
  | nil => rfl
  | cons e log ih =>
      have hkey : (key.moved k == e.1.moved k) = (key == e.1) := by
        rw [Bool.eq_iff_iff, beq_iff_eq, beq_iff_eq, DeclarationKey.moved_inj]
      rw [List.map_cons, List.lookup_cons, List.lookup_cons, hkey, ih]

theorem Memo.lookup_declared_moved (k : Nat) (memo : Memo) (d : Declaration) :
    (memo.moved k).declared.lookup (d.moved k).key = memo.declared.lookup d.key :=
  lookup_moved k memo.declared d.key

theorem Memo.lookup_returned_moved (k : Nat) (memo : Memo) (d : Declaration) :
    (memo.moved k).returned.lookup (d.moved k).key = memo.returned.lookup d.key :=
  lookup_moved k memo.returned d.key

theorem key_moved_mem_iff {k : Nat} {free : List DeclarationKey} {d : Declaration} :
    (d.moved k).key ∈ free.map (DeclarationKey.moved k) ↔ d.key ∈ free := by
  simp [DeclarationKey.moved_inj]

theorem withoutKey_moved (k : Nat) (free : List DeclarationKey) (key : DeclarationKey) :
    withoutKey (free.map (DeclarationKey.moved k)) (key.moved k) =
      (withoutKey free key).map (DeclarationKey.moved k) := by
  rw [withoutKey, withoutKey, List.filter_map]
  congr 2
  funext key'
  simp [DeclarationKey.moved_inj]

theorem DeclarationTable.keys_moved (k : Nat) (table : DeclarationTable) :
    (table.moved k).keys = table.keys.map (DeclarationKey.moved k) := by
  rw [keys, keys, moved, List.map_map, List.map_map]
  rfl

/-! ### Computations on the two documents -/

namespace Infer

variable {α β α' β' : Type}

/-- On memos of well-formed types that correspond the two computations return, with related answers,
and they leave memos that correspond. -/
def Renumbers (k : Nat) (Q : α → β → Prop) (x : Infer α) (y : Infer β) : Prop :=
  ∀ memo, memo.WellTyped → ∃ t u memo', x.after memo = (.ok t, memo') ∧
    y.after (memo.moved k) = (.ok u, memo'.moved k) ∧ Q t u ∧ memo'.WellTyped

namespace Renumbers

variable {k : Nat} {Q : α → β → Prop} {Q' : α' → β' → Prop} {x : Infer α} {y : Infer β}

theorem pure {t : α} {u : β} (h : Q t u) : Renumbers k Q (pure t) (pure u) := by
  intro memo hmemo
  exact ⟨t, u, memo, rfl, rfl, h, hmemo⟩

theorem bind {f : α → Infer α'} {g : β → Infer β'} (h : Renumbers k Q x y)
    (hf : ∀ t u, Q t u → Renumbers k Q' (f t) (g u)) : Renumbers k Q' (x >>= f) (y >>= g) := by
  intro memo hmemo
  obtain ⟨t, u, memo₁, hx, hy, htu, hmemo₁⟩ := h memo hmemo
  obtain ⟨t', u', memo₂, hf, hg, htu', hmemo₂⟩ := hf t u htu memo₁ hmemo₁
  exact ⟨t', u', memo₂, by rw [after_bind_ok hx, hf], by rw [after_bind_ok hy, hg], htu', hmemo₂⟩

end Renumbers

/-- The same answer on both documents. -/
def renumbers (k : Nat) : MonadRel Infer Infer where
  rel P x y := Renumbers k (fun t u => u = t ∧ P t) x y
  pure := fun h => .pure ⟨rfl, h⟩
  bind := by
    intro _ _ P Q x y f g hx hf
    refine Renumbers.bind hx ?_
    rintro t _ ⟨rfl, ht⟩
    exact hf _ ht

end Infer

namespace Analysis

open Infer

variable {k : Nat} {a a' : Analysis}

mutual

theorem renumbers_returnTypeIn (h : a.Moved k a') (ha : a.IsRead) (ha' : a'.IsRead)
    (free : List DeclarationKey) (d : Declaration) :
    (renumbers k).rel Ty.WellFormed (a.returnTypeIn free d)
      (a'.returnTypeIn (free.map (DeclarationKey.moved k)) (d.moved k)) := by
  rcases Frame.cases_outline (h.functionBody? d) with
    ⟨hbody, hbody'⟩ | ⟨body, body', hbody, hbody', hsame⟩
  · rw [returnTypeIn_of_no_body hbody, returnTypeIn_of_no_body hbody']
    exact (renumbers k).pure .any
  · have hsome : (a.functionBody? d).isSome = true := by rw [hbody]; rfl
    have hsome' : (a'.functionBody? (d.moved k)).isSome = true := by rw [hbody']; rfl
    intro memo hmemo
    have hlookup' := Memo.lookup_returned_moved k memo d
    cases hlookup : memo.returned.lookup d.key with
    | some t =>
        rw [hlookup] at hlookup'
        exact ⟨t, t, memo, after_returnTypeIn_of_remembered hsome hlookup,
          after_returnTypeIn_of_remembered hsome' hlookup',
          ⟨rfl, hmemo.returned (mem_of_lookup_eq_some hlookup)⟩, hmemo⟩
    | none =>
        rw [hlookup] at hlookup'
        by_cases hkey : d.key ∈ free
        · -- Entered in both documents; inside, fewer declarations are free.
          have := length_withoutKey_lt hkey
          obtain ⟨i, hi⟩ := exists_frame_of_functionBody? hbody
          obtain ⟨i', hi'⟩ := exists_frame_of_functionBody? hbody'
          obtain ⟨returns, hreturns, hreturns'⟩ := h.ownReturns ha ha' hi hi'
            (Frame.congr_outline hsame Frame.id fun _ _ => rfl)
          have hinside := rel_returnedType (R := renumbers k)
            (f := a.declarationTypeIn (withoutKey free d.key))
            (g := fun e => a'.declarationTypeIn
              ((withoutKey free d.key).map (DeclarationKey.moved k)) (e.moved k))
            (fun e he => renumbers_declarationTypeIn h ha ha' (withoutKey free d.key) he) returns
          rw [← h.returnedType] at hinside
          obtain ⟨t, _, memo', hafter, hafter', ⟨rfl, ht⟩, hmemo'⟩ := hinside memo hmemo
          rw [← withoutKey_moved] at hafter'
          exact ⟨_, _, _, after_returnTypeIn_of_entered hbody hlookup hkey hreturns hafter,
            after_returnTypeIn_of_entered hbody' hlookup' (key_moved_mem_iff.2 hkey) hreturns'
              hafter',
            ⟨rfl, ht⟩, hmemo'.addReturned d.key ht⟩
        · -- Being looked at in both.
          exact ⟨.any, .any, memo, after_returnTypeIn_of_busy hsome hlookup hkey,
            after_returnTypeIn_of_busy hsome' hlookup' (mt key_moved_mem_iff.1 hkey), ⟨rfl, .any⟩,
            hmemo⟩
termination_by 2 * free.length

theorem renumbers_variableTypeIn (h : a.Moved k a') (ha : a.IsRead) (ha' : a'.IsRead)
    (free : List DeclarationKey) (d : Declaration) :
    (renumbers k).rel Ty.WellFormed (a.variableTypeIn free d)
      (a'.variableTypeIn (free.map (DeclarationKey.moved k)) (d.moved k)) := by
  intro memo hmemo
  have hlookup' := Memo.lookup_declared_moved k memo d
  cases hlookup : memo.declared.lookup d.key with
  | some t =>
      rw [hlookup] at hlookup'
      exact ⟨t, t, memo, after_variableTypeIn_of_remembered hlookup,
        after_variableTypeIn_of_remembered hlookup',
        ⟨rfl, hmemo.declared (mem_of_lookup_eq_some hlookup)⟩, hmemo⟩
  | none =>
      rw [hlookup] at hlookup'
      by_cases hkey : d.key ∈ free
      · have := length_withoutKey_lt hkey
        have hinside := rel_initialType (R := renumbers k)
          (f := a.declarationTypeIn (withoutKey free d.key))
          (g := fun e => a'.declarationTypeIn
            ((withoutKey free d.key).map (DeclarationKey.moved k)) (e.moved k))
          (fun e he => renumbers_declarationTypeIn h ha ha' (withoutKey free d.key) he) d
        rw [← h.initialType] at hinside
        obtain ⟨t, _, memo', hafter, hafter', ⟨rfl, ht⟩, hmemo'⟩ := hinside memo hmemo
        rw [← withoutKey_moved] at hafter'
        exact ⟨_, _, _, after_variableTypeIn_of_entered hlookup hkey hafter,
          after_variableTypeIn_of_entered hlookup' (key_moved_mem_iff.2 hkey) hafter',
          ⟨rfl, ht⟩, hmemo'.addDeclared d.key ht⟩
      · exact ⟨.any, .any, memo, after_variableTypeIn_of_busy hlookup hkey,
          after_variableTypeIn_of_busy hlookup' (mt key_moved_mem_iff.1 hkey), ⟨rfl, .any⟩, hmemo⟩
termination_by 2 * free.length

theorem renumbers_declarationTypeIn (h : a.Moved k a') (ha : a.IsRead) (ha' : a'.IsRead)
    (free : List DeclarationKey) {d : Declaration} (hd : d ∈ a.table.declarations) :
    (renumbers k).rel Ty.WellFormed (a.declarationTypeIn free d)
      (a'.declarationTypeIn (free.map (DeclarationKey.moved k)) (d.moved k)) := by
  rw [declarationTypeIn, declarationTypeIn]
  have hby := rel_declarationTypeBy (R := renumbers k) (fun t => ha.consistent.wellFormed hd)
    (g := fun e => a'.returnTypeIn (free.map (DeclarationKey.moved k)) (e.moved k))
    (w := fun e => a'.variableTypeIn (free.map (DeclarationKey.moved k)) (e.moved k))
    (renumbers_returnTypeIn h ha ha' free d) fun _ => renumbers_variableTypeIn h ha ha' free d
  exact hby
termination_by 2 * free.length + 1

end

/-! ### Questions of rules -/

variable (h : a.Moved k a') (ha : a.IsRead) (ha' : a'.IsRead)
include h ha ha'

/-- A declaration has the type that it had. -/
theorem renumbers_declarationType {d : Declaration} (hd : d ∈ a.table.declarations) :
    (renumbers k).rel Ty.WellFormed (a.declarationType d) (a'.declarationType (d.moved k)) := by
  rw [declarationType, declarationType, h.table, DeclarationTable.keys_moved]
  exact renumbers_declarationTypeIn h ha ha' a.table.keys hd

/-- An expression has the type that it had. -/
theorem renumbers_inferTokens (tokens : List Token) (n : Nat) :
    (renumbers k).rel Ty.WellFormed (a.inferTokens tokens n)
      (a'.inferTokens (tokens.map (Token.moved k)) (movedLine k n : Nat)) := by
  rw [inferTokens, inferTokens, Expression.inferTokens_moved _ h]
  exact Expression.rel_inferTokens (fun d hd => renumbers_declarationType h ha ha' hd) tokens n

theorem renumbers_infer (text : List Char) (n : Nat) :
    (renumbers k).rel Ty.WellFormed (a.infer text n) (a'.infer text (movedLine k n : Nat)) := by
  rw [infer, infer, Expression.inferText_moved _ h]
  exact Expression.rel_inferText (fun d hd => renumbers_declarationType h ha ha' hd) text n

end Analysis

end Polyloft
