import Polyloft.Inference
import Polyloft.Proofs.Declaration.Table

/-!
# Polyloft.Proofs.Inference.Relation

The types of expressions are found in any monad, given the types of declarations. Two ways of
finding the types of declarations that are related give related types of expressions, whatever the
relation, as long as it is kept by answers and by one computation after another. This is proved
once here. What inference remembers, that it has an answer, and that the answer does not depend on
the questions before are then facts about declarations only.

## Proof shape

`MonadRel` is such a relation, with a predicate on the answers: here that types are well formed,
which makes the walk over a union meet named types only. Nothing is asked of faults, so none may be
met: a chain is begun with a token (`rel_inferChain`), and an expression has a type whenever
declarations have (`exists_inferTokens_eq_ok`). The lemmas follow the definitions of
`Polyloft.Inference.Expression` one by one; the last three are mutual, as the definitions are.
-/

namespace Polyloft

/-! ### Related computations -/

/-- A relation between computations of two monads that give the same answers, satisfying a
predicate. -/
structure MonadRel (m n : Type → Type) [Monad m] [Monad n] where
  rel : {α : Type} → (α → Prop) → m α → n α → Prop
  pure : ∀ {α : Type} {P : α → Prop} {x : α}, P x → rel P (pure x) (pure x)
  bind : ∀ {α β : Type} {P : α → Prop} {Q : β → Prop} {x : m α} {y : n α} {f : α → m β}
    {g : α → n β}, rel P x y → (∀ a, P a → rel Q (f a) (g a)) → rel Q (x >>= f) (y >>= g)

namespace MonadRel

variable {m n : Type → Type} [Monad m] [LawfulMonad m] [Monad n] [LawfulMonad n]
  (R : MonadRel m n) {α β : Type} {P : α → Prop} {Q : β → Prop}

theorem map {x : m α} {y : n α} {f : α → β} (h : R.rel P x y) (hf : ∀ a, P a → Q (f a)) :
    R.rel Q (f <$> x) (f <$> y) := by
  rw [map_eq_pure_bind, map_eq_pure_bind]
  refine R.bind h ?_
  intro a ha
  exact R.pure (hf a ha)

theorem mapM {xs : List α} {f : α → m β} {g : α → n β} (h : ∀ x ∈ xs, R.rel Q (f x) (g x)) :
    R.rel (fun ys => ∀ y ∈ ys, Q y) (xs.mapM f) (xs.mapM g) := by
  induction xs with
  | nil =>
      rw [List.mapM_nil, List.mapM_nil]
      exact R.pure (by simp)
  | cons x xs ih =>
      rw [List.mapM_cons, List.mapM_cons]
      refine R.bind (h x (List.mem_cons_self ..)) ?_
      intro y hy
      refine R.bind (ih fun x' hx' => h x' (List.mem_cons_of_mem _ hx')) ?_
      intro ys hys
      refine R.pure ?_
      intro z hz
      rcases List.mem_cons.1 hz with rfl | hz
      · exact hy
      · exact hys z hz

end MonadRel

/-- Every type that an answer holds is well formed. -/
def Ty.Answer (found : Option Ty) : Prop :=
  ∀ t, found = some t → t.WellFormed

/-- The type that an answer starts with is well formed. -/
def Ty.Primary (found : Option (Ty × List Token)) : Prop :=
  ∀ r, found = some r → r.1.WellFormed

theorem Ty.answer_none : Ty.Answer none := by
  simp [Ty.Answer]

theorem Ty.answer_some {t : Ty} (h : t.WellFormed) : Ty.Answer (some t) := by
  simpa [Ty.Answer] using h

theorem Ty.primary_none : Ty.Primary none := by
  simp [Ty.Primary]

theorem Ty.primary_some {t : Ty} {rest : List Token} (h : t.WellFormed) :
    Ty.Primary (some (t, rest)) := by
  simpa [Ty.Primary] using h

namespace Expression

/-! ### Types that the written form decides -/

theorem wellFormed_thisType (a : Analysis) (line : Int) : (thisType a line).WellFormed := by
  unfold thisType
  dsimp only
  split
  · exact .simple _
  · exact .any

theorem wellFormed_genericCall? {tokens rest : List Token} {t : Ty}
    (h : genericCall? tokens = some (t, rest)) : t.WellFormed := by
  obtain ⟨close, -, h⟩ := Option.bind_eq_some_iff.1 h
  dsimp only at h
  split at h
  · obtain ⟨g, -, heq⟩ := Option.map_eq_some_iff.1 h
    obtain ⟨rfl, -⟩ := Prod.mk.inj heq
    exact .ofString _
  · simp at h

theorem answer_enumStatic? (enum member : String) : Ty.Answer (enumStatic? enum member) := by
  unfold enumStatic?
  split
  · exact Ty.answer_some (.array (.simple _))
  · exact Ty.answer_some (.simple _)
  · exact Ty.answer_some (.array (.simple _))
  · exact Ty.answer_some (.simple _)
  · exact Ty.answer_none

theorem wellFormed_packageMemberType (p : CatalogPackage) (member : String) :
    (packageMemberType p member).WellFormed := by
  unfold packageMemberType
  split
  · exact .ofString _
  · exact .ofString _
  · exact .any

theorem answer_literalArithmetic? (tokens : List Token) (parts : List (List Token)) :
    Ty.Answer (literalArithmetic? tokens parts) := by
  unfold literalArithmetic?
  split
  · exact Ty.answer_some .any
  · split
    · exact Ty.answer_some (.simple _)
    · split
      · exact Ty.answer_some (.simple _)
      · exact Ty.answer_none

theorem wellFormed_arithmeticType (hasPlus : Bool) (types : List Ty) :
    (arithmeticType hasPlus types).WellFormed := by
  unfold arithmeticType
  split
  · exact .simple _
  · split
    · exact .simple _
    · split
      · exact .simple _
      · exact .any

theorem wellFormed_arrayType {types : List Ty} (h : ∀ t ∈ types, t.WellFormed) :
    (arrayType types).WellFormed := by
  unfold arrayType
  split
  · exact .array .any
  · split
    · split
      · exact .array (h _ (List.mem_cons_self ..))
      · exact .array .any
    · exact .array .any

theorem answer_literalType? (t : Token) : Ty.Answer (literalType? t) := by
  unfold literalType?
  split
  · exact Ty.answer_some (.simple _)
  · exact Ty.answer_some (.simple _)
  · exact Ty.answer_some (.simple _)
  · split
    · exact Ty.answer_some (.simple _)
    · split
      · exact Ty.answer_some .any
      · exact Ty.answer_none
  · exact Ty.answer_none

/-! ### Types that depend on declarations -/

section

variable {m n : Type → Type} [Monad m] [LawfulMonad m] [Monad n] [LawfulMonad n]
  {R : MonadRel m n} {a : Analysis} {f : Declaration → m Ty} {g : Declaration → n Ty}
  (h : ∀ d ∈ a.table.declarations, R.rel Ty.WellFormed (f d) (g d))
include h

theorem rel_memberType? (owner name : String) :
    R.rel Ty.Answer (memberType? a f owner name) (memberType? a g owner name) := by
  unfold memberType?
  split
  · exact R.pure Ty.answer_none
  · rename_i t ht
    exact R.pure (Ty.answer_some (DeclarationTable.wellFormed_of_memberSource? ht))
  · rename_i d hd
    exact R.map (h d (DeclarationTable.mem_of_memberSource? hd)) fun _ => Ty.answer_some

theorem rel_namedMethodType {name : String} {args : List Ty} (method : String)
    (hargs : (Ty.named name args).WellFormed) :
    R.rel Ty.WellFormed (namedMethodType a f name args method)
      (namedMethodType a g name args method) := by
  unfold namedMethodType
  split
  · rename_i t ht
    exact R.pure (Catalog.wellFormed_methodType? hargs ht)
  · refine R.bind (rel_memberType? h name method) ?_
    intro found hfound
    cases found with
    | some t => exact R.pure (hfound t rfl)
    | none =>
        refine R.pure ?_
        split
        · exact .simple _
        · exact .any

omit h [LawfulMonad m] [LawfulMonad n] in
theorem rel_methodTypes {Q : Ty → Prop} (method : String) {members : List Ty}
    (hmembers : ∀ t ∈ members, R.rel Q (methodType a f method t) (methodType a g method t)) :
    R.rel (fun types => ∀ t ∈ types, Q t) (methodTypes a f method members)
      (methodTypes a g method members) := by
  induction members with
  | nil =>
      rw [methodTypes, methodTypes]
      exact R.pure (by simp)
  | cons t ts ih =>
      rw [methodTypes, methodTypes]
      refine R.bind (hmembers t (List.mem_cons_self ..)) ?_
      intro found hfound
      split
      · exact R.pure (by simpa using hfound)
      · refine R.bind (ih fun s hs => hmembers s (List.mem_cons_of_mem _ hs)) ?_
        intro types htypes
        refine R.pure ?_
        intro s hs
        rcases List.mem_cons.1 hs with rfl | hs
        · exact hfound
        · exact htypes s hs

theorem rel_methodType (method : String) {t : Ty} (ht : t.WellFormed) :
    R.rel Ty.WellFormed (methodType a f method t) (methodType a g method t) := by
  induction ht with
  | any =>
      rw [methodType, methodType]
      exact R.pure .any
  | named hargs =>
      rw [methodType, methodType]
      exact rel_namedMethodType h method (.named hargs)
  | union _ _ _ _ _ ih =>
      rw [methodType, methodType]
      exact R.map (rel_methodTypes method ih) fun _ => .unify

omit [LawfulMonad m] [LawfulMonad n] in
theorem rel_callType (name : String) (line : Int) :
    R.rel Ty.WellFormed (callType a f name line) (callType a g name line) := by
  unfold callType
  dsimp only
  split
  · rename_i d hd
    refine h d ?_
    rcases Option.or_eq_some_iff.1 (Option.filter_eq_some_iff.1 hd).1 with hd | ⟨-, hd⟩
    · exact DeclarationTable.mem_of_visible? hd
    · exact List.mem_of_find?_eq_some (Option.filter_eq_some_iff.1 hd).1
  · refine R.pure ?_
    cases a.catalog.global? name with
    | none => exact .any
    | some function => exact .ofString function.returns

theorem rel_classAccess (owner : Declaration) (member : String) :
    R.rel Ty.WellFormed (classAccess a f owner member) (classAccess a g owner member) := by
  unfold classAccess
  dsimp only
  split
  · rename_i t ht
    refine R.pure ?_
    split at ht
    · split at ht
      · obtain rfl := Option.some.inj ht
        exact .simple _
      · exact answer_enumStatic? _ _ t ht
    · simp at ht
  · refine R.map (rel_memberType? h owner.name member) ?_
    intro found hfound
    cases found with
    | none => exact .any
    | some t => exact hfound t rfl

theorem rel_staticAccess (name member : String) (line : Int) :
    R.rel Ty.Answer (staticAccess a f name member line) (staticAccess a g name member line) := by
  unfold staticAccess
  split
  · split
    · exact R.pure Ty.answer_none
    · exact R.pure (Ty.answer_some (wellFormed_packageMemberType _ _))
  · exact R.map (rel_classAccess h _ member) fun _ => Ty.answer_some
  · exact R.pure Ty.answer_none

omit [LawfulMonad m] [LawfulMonad n] in
theorem rel_nameType (name : String) (line : Int) :
    R.rel Ty.WellFormed (nameType a f name line) (nameType a g name line) := by
  unfold nameType
  split
  · rename_i d hd
    exact h d (DeclarationTable.mem_of_visible? hd)
  · refine R.pure ?_
    split
    · exact .simple _
    · exact .any

theorem rel_plainName (first : Token) (rest : List Token) (line : Int) :
    R.rel Ty.Primary (plainName a f first rest line) (plainName a g first rest line) := by
  have value : R.rel Ty.Primary (do return some (← nameType a f first.text line, rest))
      (do return some (← nameType a g first.text line, rest)) :=
    R.bind (rel_nameType h first.text line) fun _ ht => R.pure (Ty.primary_some ht)
  unfold plainName
  dsimp only
  split
  · split
    · split
      · exact value
      · refine R.bind (rel_staticAccess h first.text _ line) ?_
        intro found hfound
        cases found with
        | none => exact value
        | some t => exact R.pure (Ty.primary_some (hfound t rfl))
    · exact value
  · exact value

theorem rel_nameForm (first : Token) (rest : List Token) (line : Int) :
    R.rel Ty.Primary (nameForm a f first rest line) (nameForm a g first rest line) := by
  unfold nameForm
  dsimp only
  split
  · rename_i r hr
    refine R.pure ?_
    split at hr
    · exact Ty.primary_some (wellFormed_genericCall? hr)
    · simp at hr
  · split
    · split
      · exact R.pure Ty.primary_none
      · split
        · exact R.pure (Ty.primary_some (.simple _))
        · exact R.bind (rel_callType h first.text line) fun _ ht => R.pure (Ty.primary_some ht)
    · exact rel_plainName h first rest line

/-! ### Expressions -/

theorem rel_chain {current : Ty} (hcurrent : current.WellFormed) (tokens : List Token) :
    R.rel Ty.Answer (chain a f current tokens) (chain a g current tokens) := by
  match tokens with
  | [] =>
    rw [chain, chain]
    exact R.pure (Ty.answer_some hcurrent)
  | t :: ts =>
    rw [chain.eq_def a f, chain.eq_def a g]
    dsimp only
    split
    · -- A member, which may be called.
      match ts with
      | [] => exact R.pure Ty.answer_none
      | member :: more =>
        dsimp only
        split
        · split
          · exact R.pure Ty.answer_none
          · rename_i after hafter
            have := afterArguments?_length hafter
            refine R.bind (rel_methodType h member.text hcurrent) ?_
            intro next hnext
            exact rel_chain hnext after
        · exact R.pure Ty.answer_none
    · split
      · -- An index.
        split
        · exact R.pure Ty.answer_none
        · rename_i inside after hgroup
          have := (group?_length hgroup).2
          exact rel_chain hcurrent.element after
      · split
        · -- A call of a value, whose result is not known.
          split
          · exact R.pure Ty.answer_none
          · rename_i inside after hgroup
            have := (group?_length hgroup).2
            exact rel_chain .any after
        · exact R.pure Ty.answer_none
termination_by tokens.length
decreasing_by
  all_goals simp only [List.length_cons] at *
  all_goals omega

omit h

variable [MonadLiftT (Except Fault) m] [MonadLiftT (Except Fault) n]

mutual

theorem rel_inferTokens
    (h : ∀ d ∈ a.table.declarations, R.rel Ty.WellFormed (f d) (g d))
    (tokens : List Token) (line : Int) :
    R.rel Ty.WellFormed (inferTokens a f tokens line) (inferTokens a g tokens line) := by
  rw [inferTokens, inferTokens]
  have hstrip := length_stripParens_le tokens
  dsimp only
  split
  · exact R.pure .any
  · rename_i hinner
    have hne : stripParens tokens ≠ [] := fun hempty => hinner (by simp [hempty])
    refine R.bind (rel_inferChain h (stripParens tokens) hne line) ?_
    intro found hfound
    cases found with
    | some t => exact R.pure (hfound t rfl)
    | none =>
        dsimp only
        split
        · exact R.pure (.simple _)
        · split
          · exact R.pure (.simple _)
          · split
            · exact R.pure .any
            · rename_i hsplit
              split
              · rename_i t ht
                exact R.pure (answer_literalArithmetic? _ _ t ht)
              · refine R.bind (R.mapM (Q := Ty.WellFormed) ?_) fun types _ =>
                  R.pure (wellFormed_arithmeticType _ types)
                intro part _
                have := length_lt_of_mem_operands part.2 hsplit
                exact rel_inferTokens h part.1 line
termination_by 3 * tokens.length + 2

theorem rel_inferChain
    (h : ∀ d ∈ a.table.declarations, R.rel Ty.WellFormed (f d) (g d))
    (tokens : List Token) (hne : tokens ≠ []) (line : Int) :
    R.rel Ty.Answer (inferChain a f tokens line) (inferChain a g tokens line) := by
  rw [inferChain, inferChain]
  refine R.bind (rel_inferPrimary h tokens hne line) ?_
  intro found hfound
  cases found with
  | none => exact R.pure Ty.answer_none
  | some r => exact rel_chain h (hfound r rfl) r.2
termination_by 3 * tokens.length + 1

theorem rel_inferPrimary
    (h : ∀ d ∈ a.table.declarations, R.rel Ty.WellFormed (f d) (g d))
    (tokens : List Token) (hne : tokens ≠ []) (line : Int) :
    R.rel Ty.Primary (inferPrimary a f tokens line) (inferPrimary a g tokens line) := by
  match tokens, hne with
  | [], hne => exact absurd rfl hne
  | first :: rest, _ =>
    rw [inferPrimary.eq_def a f, inferPrimary.eq_def a g]
    dsimp only
    split
    · rename_i t ht
      exact R.pure (Ty.primary_some (answer_literalType? first t ht))
    · split
      · -- A minus sign takes the whole chain behind it, which has a token.
        rename_i hminus
        rw [Bool.and_eq_true] at hminus
        refine R.bind (rel_inferChain h rest (by simpa using hminus.2) line) ?_
        intro found hfound
        refine R.pure ?_
        intro r hr
        obtain ⟨t, ht, rfl⟩ := Option.map_eq_some_iff.1 hr
        exact hfound t ht
      · split
        · -- The elements of an array are shorter than the array.
          split
          · exact R.pure Ty.primary_none
          · rename_i inside after hgroup
            refine R.bind (R.mapM ?_) fun types htypes =>
              R.pure (Ty.primary_some (wellFormed_arrayType htypes))
            intro part _
            have := length_le_of_mem_splitCommas part.2
            have := (group?_length hgroup).1
            exact rel_inferTokens h part.1 line
        · split
          · split
            · exact R.pure Ty.primary_none
            · exact R.pure (Ty.primary_some (.simple _))
          · split
            · split
              · exact R.pure Ty.primary_none
              · rename_i inside after hgroup
                have := (group?_length hgroup).1
                exact R.bind (rel_inferTokens h inside line) fun _ ht => R.pure (Ty.primary_some ht)
            · split
              · exact R.pure (Ty.primary_some (wellFormed_thisType a line))
              · split
                · exact rel_nameForm h first rest line
                · exact R.pure Ty.primary_none
termination_by 3 * tokens.length
decreasing_by
  all_goals simp only [List.length_cons] at *
  all_goals omega

end

include h in
theorem rel_inferText (text : List Char) (line : Int) :
    R.rel Ty.WellFormed (inferText a f text line) (inferText a g text line) :=
  rel_inferTokens h _ line

end

/-! ### No fault of its own -/

/-- The first computation has an answer. -/
def answers : MonadRel (Except Fault) (Except Fault) where
  rel P x _ := ∃ t, x = .ok t ∧ P t
  pure h := ⟨_, rfl, h⟩
  bind := by
    intro _ _ P Q x y f g hx hf
    obtain ⟨t, rfl, ht⟩ := hx
    exact hf t ht

/-- An expression has a type if every declaration has one: no primary expression is read where
there is no token. -/
theorem exists_inferTokens_eq_ok {a : Analysis} {f : Declaration → Except Fault Ty}
    (h : ∀ d ∈ a.table.declarations, ∃ t, f d = .ok t ∧ t.WellFormed) (tokens : List Token)
    (line : Int) : ∃ t, inferTokens a f tokens line = .ok t ∧ t.WellFormed :=
  rel_inferTokens (R := answers) (g := f) h tokens line

end Expression

/-! ### Declarations -/

namespace Analysis

variable {m n : Type → Type} [Monad m] [LawfulMonad m] [Monad n] [LawfulMonad n]
  {R : MonadRel m n} {a : Analysis} {f : Declaration → m Ty} {g : Declaration → n Ty}

theorem rel_returnedType [MonadLiftT (Except Fault) m] [MonadLiftT (Except Fault) n]
    (h : ∀ d ∈ a.table.declarations, R.rel Ty.WellFormed (f d) (g d))
    (returns : List (List Token × Nat)) :
    R.rel Ty.WellFormed (a.returnedType f returns) (a.returnedType g returns) := by
  unfold returnedType
  refine R.bind (R.mapM ?_) fun types htypes => R.pure (.unify htypes)
  intro r _
  split
  · exact R.pure (.simple _)
  · exact Expression.rel_inferTokens h r.1 r.2

theorem rel_initialType [MonadLiftT (Except Fault) m] [MonadLiftT (Except Fault) n]
    (h : ∀ d ∈ a.table.declarations, R.rel Ty.WellFormed (f d) (g d)) (d : Declaration) :
    R.rel Ty.WellFormed (a.initialType f d) (a.initialType g d) := by
  unfold initialType
  split
  · exact R.pure (.simple _)
  · exact R.map (Expression.rel_inferText h _ _) fun _ => .iteration
  · exact R.pure .any
  · split
    · exact R.pure .any
    · exact Expression.rel_inferText h _ _
  · exact R.pure .any

omit [LawfulMonad m] [LawfulMonad n] in
theorem rel_functionTypeBy {d : Declaration} (h : R.rel Ty.WellFormed (f d) (g d)) :
    R.rel Ty.WellFormed (functionTypeBy f d) (functionTypeBy g d) := by
  unfold functionTypeBy
  split
  · exact R.pure (.simple _)
  · split
    · exact R.pure (.ofString _)
    · split
      · exact R.pure .any
      · exact h
  · exact R.pure .any
  · exact h

omit [LawfulMonad m] [LawfulMonad n] in
theorem rel_declarationTypeBy {v : Declaration → m Ty} {w : Declaration → n Ty} {d : Declaration}
    (hdeclared : ∀ t, d.declaredType = some t → t.WellFormed)
    (hreturn : R.rel Ty.WellFormed (f d) (g d))
    (hvariable : d.isVariable = true → R.rel Ty.WellFormed (v d) (w d)) :
    R.rel Ty.WellFormed (declarationTypeBy f v d) (declarationTypeBy g w d) := by
  unfold declarationTypeBy
  split
  · rename_i t ht
    exact R.pure (hdeclared t ht)
  · exact R.pure (.simple _)
  · exact rel_functionTypeBy hreturn
  · rename_i hkind
    exact hvariable (by simp [Declaration.isVariable, hkind])

end Analysis

end Polyloft
