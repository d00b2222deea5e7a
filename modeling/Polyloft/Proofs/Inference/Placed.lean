import Polyloft.Inference.Expression
import Polyloft.Proofs.Token.Placed

/-!
# Polyloft.Proofs.Inference.Placed

The type of an expression does not depend on where its tokens stand. It is found from categories and
texts, and from what names mean in the surroundings: two expressions whose tokens differ in their
places only have the same type, in every monad, in surroundings that answer alike
(`Expression.inferTokens_placed`). The lemmas follow the definitions of
`Polyloft.Inference.Expression` one by one.
-/

namespace Polyloft

/-- Going over a list together with the proofs of membership, and not using them. -/
theorem mapM_attach_eq {m : Type → Type} [Monad m] [LawfulMonad m] {α β : Type} (xs : List α)
    (f : α → m β) : (xs.attach.mapM fun x => f x.1) = xs.mapM f := by
  rw [show (fun x : { x // x ∈ xs } => f x.1) = f ∘ Subtype.val from rfl, ← List.mapM_map,
    List.attach_map_subtype_val]

theorem mapM_congr_of_mem {m : Type → Type} [Monad m] [LawfulMonad m] {α β : Type} {xs : List α}
    {f g : α → m β} (h : ∀ x ∈ xs, f x = g x) : xs.mapM f = xs.mapM g := by
  rw [← mapM_attach_eq xs f, ← mapM_attach_eq xs g]
  congr 1
  funext x
  exact h x.1 x.2

namespace Expression

/-! ### Equations

The definitions carry the proofs that the recursion ends. Here they are without. -/

section

variable {m : Type → Type} [Monad m] (a : Analysis) (f : Declaration → m Ty)

theorem chain_cons (current : Ty) (t : Token) (ts : List Token) :
    chain a f current (t :: ts) =
      if t.isSymbol "." then
        match ts with
        | [] => pure none
        | member :: more =>
          if member.kind == .identifier || member.kind == .keyword then
            (afterArguments? more).elim (pure none) fun after => do
              chain a f (← methodType a f member.text current) after
          else pure none
      else if t.isSymbol "[" then
        (group? (t :: ts)).elim (pure none) fun g => chain a f current.element g.2
      else if t.isSymbol "(" then
        (group? (t :: ts)).elim (pure none) fun g => chain a f .any g.2
      else pure none := by
  rw [chain.eq_def]
  dsimp only
  congr 1
  · cases ts with
    | nil => rfl
    | cons member more =>
        dsimp only
        congr 1
        cases afterArguments? more <;> rfl
  · congr 1
    · cases group? (t :: ts) <;> rfl
    · congr 1
      cases group? (t :: ts) <;> rfl

variable [LawfulMonad m] [MonadLiftT (Except Fault) m]

theorem inferTokens_eq (tokens : List Token) (line : Int) :
    inferTokens a f tokens line =
      (if (stripParens tokens).isEmpty || (stripParens tokens).any (·.isSymbol "=>") then pure .any
      else do
        match ← inferChain a f (stripParens tokens) line with
        | some t => pure t
        | none =>
          if !(splitTop isTruthOperator (stripParens tokens)).isEmpty ||
              (stripParens tokens).head?.any (·.isSymbol "!") then pure .bool
          else if !(splitTop isRangeOperator (stripParens tokens)).isEmpty then pure .range
          else if (splitTop isArithmeticOperator (stripParens tokens)).isEmpty then pure .any
          else
            match literalArithmetic? (stripParens tokens)
                (operands isArithmeticOperator (stripParens tokens)) with
            | some t => pure t
            | none => do
              let types ← (operands isArithmeticOperator (stripParens tokens)).mapM
                fun part => inferTokens a f part line
              let hasPlus := (splitTop isArithmeticOperator (stripParens tokens)).any
                fun op => op.2.text == "+"
              pure (arithmeticType hasPlus types)) := by
  rw [inferTokens.eq_def]
  dsimp only
  congr 2
  funext found
  cases found with
  | some t => rfl
  | none =>
      dsimp only
      congr 2
      by_cases hsplit : splitTop isArithmeticOperator (stripParens tokens) = []
      · rw [dif_pos hsplit, hsplit]
        rfl
      · rw [dif_neg hsplit, if_neg (by simpa using hsplit)]
        cases literalArithmetic? (stripParens tokens)
            (operands isArithmeticOperator (stripParens tokens)) with
        | some t => rfl
        | none =>
            dsimp only
            rw [mapM_attach_eq _ fun part => inferTokens a f part line]

theorem inferPrimary_cons (first : Token) (rest : List Token) (line : Int) :
    inferPrimary a f (first :: rest) line =
      (literalType? first).elim
        (if first.isSymbol "-" && !rest.isEmpty then do
          return (← inferChain a f rest line).map (·, [])
        else if first.isSymbol "[" then
          (group? (first :: rest)).elim (pure none) fun g => do
            let types ← (splitCommas g.1).mapM fun part => inferTokens a f part line
            pure (some (arrayType types, g.2))
        else if first.isSymbol "\x7b" then
          (group? (first :: rest)).elim (pure none) fun g => pure (some (.map, g.2))
        else if first.isSymbol "(" then
          (group? (first :: rest)).elim (pure none) fun g => do
            return some (← inferTokens a f g.1 line, g.2)
        else if first.isKeyword "this" then pure (some (thisType a line, rest))
        else if first.kind == .identifier then nameForm a f first rest line
        else pure none)
        fun t => pure (some (t, rest)) := by
  rw [inferPrimary.eq_def]
  dsimp only
  cases literalType? first with
  | some t => rfl
  | none =>
      dsimp only [Option.elim]
      congr 1
      congr 1
      · cases group? (first :: rest) with
        | none => rfl
        | some g =>
            dsimp only
            rw [mapM_attach_eq _ fun part => inferTokens a f part line]
      · congr 1
        · cases group? (first :: rest) <;> rfl
        · congr 1
          cases group? (first :: rest) <;> rfl

end

/-! ### The written form -/

/-- A type and the tokens behind the expression, put elsewhere. -/
def placedRest (g : Token → Token) (r : Ty × List Token) : Ty × List Token :=
  (r.1, r.2.map g)

section

variable {g : Token → Token} (hg : Token.PlaceOnly g)
include hg

theorem genericCall?_placed (tokens : List Token) :
    genericCall? (tokens.map g) = (genericCall? tokens).map (placedRest g) := by
  unfold genericCall?
  rw [hg.matchingAngle?_map]
  cases matchingAngle? tokens 1 with
  | none => rfl
  | some close =>
      have hparen :=
        headAny_map_placed (·.isSymbol "(") (hg.isSymbol · "(") (tokens.drop (close + 1))
      simp only [Option.bind_some, ← List.map_drop, hparen, hg.group?_map, ← List.map_take,
        List.map_map, Function.comp_def, hg.text]
      split
      · rw [Option.map_map, Option.map_map]
        rfl
      · rfl

theorem afterArguments?_placed (tokens : List Token) :
    afterArguments? (tokens.map g) = (afterArguments? tokens).map (List.map g) := by
  have hparen := headAny_map_placed (·.isSymbol "(") (hg.isSymbol · "(") tokens
  simp only [afterArguments?, hparen, hg.group?_map]
  split
  · rw [Option.map_map, Option.map_map]
    rfl
  · rfl

theorem literalArithmetic?_placed (tokens : List Token) (parts : List (List Token)) :
    literalArithmetic? (tokens.map g) (parts.map (List.map g)) =
      literalArithmetic? tokens parts := by
  rw [literalArithmetic?, literalArithmetic?, List.isEmpty_map, List.all_map, List.any_map]
  congr 2
  · congr 2
    funext p
    match p with
    | [] => rfl
    | [t] => simp [hg.kind]
    | _ :: _ :: _ => rfl
  · congr 2
    simp [Function.comp_def, hg.kind, hg.isSymbol]

theorem splitTop_placed (isOperator : String → Bool) (tokens : List Token) :
    splitTop isOperator (tokens.map g) =
      (splitTop isOperator tokens).map fun p => (p.1, g p.2) :=
  hg.splitTopFrom_map isOperator 0 0 tokens

theorem literalType?_placed (t : Token) : literalType? (g t) = literalType? t := by
  rw [literalType?, literalType?, hg.kind, hg.text]

end

/-! ### Names -/

/-- What an expression asks of its surroundings is answered alike on the two lines: the types of
members and of names. -/
structure SameAnswers {m : Type → Type} [Monad m] (a a' : Analysis) (f f' : Declaration → m Ty)
    (line line' : Int) : Prop where
  methodType : ∀ method t, methodType a' f' method t = methodType a f method t
  thisType : thisType a' line' = thisType a line
  callType : ∀ name, callType a' f' name line' = callType a f name line
  staticAccess : ∀ name member,
    staticAccess a' f' name member line' = staticAccess a f name member line
  nameType : ∀ name, nameType a' f' name line' = nameType a f name line

theorem SameAnswers.refl {m : Type → Type} [Monad m] (a : Analysis) (f : Declaration → m Ty)
    (line : Int) : SameAnswers a a f f line line :=
  ⟨fun _ _ => rfl, rfl, fun _ => rfl, fun _ _ => rfl, fun _ => rfl⟩

section

variable {m : Type → Type} [Monad m] {a a' : Analysis} {f f' : Declaration → m Ty}
  {line line' : Int} {g : Token → Token}

variable [LawfulMonad m]

theorem plainName_placed (h : SameAnswers a a' f f' line line') (hg : Token.PlaceOnly g)
    (first : Token) (rest : List Token) :
    plainName a' f' (g first) (rest.map g) line' =
      Option.map (placedRest g) <$> plainName a f first rest line := by
  have value : (do return some (← nameType a' f' first.text line', rest.map g) :
        m (Option (Ty × List Token))) =
      Option.map (placedRest g) <$> (do return some (← nameType a f first.text line, rest)) := by
    rw [h.nameType, map_bind]
    simp [placedRest]
  unfold plainName
  rw [hg.text]
  match rest with
  | [] => exact value
  | [dot] => exact value
  | dot :: member :: more =>
    simp only [List.map_cons, hg.text, hg.isSymbol, afterArguments?_placed hg]
    split
    · cases afterArguments? more with
      | none => exact value
      | some after =>
          dsimp only [Option.map_some]
          rw [h.staticAccess, map_bind]
          congr 1
          funext found
          cases found with
          | none => exact value
          | some t => simp [placedRest]
    · exact value

theorem nameForm_placed (h : SameAnswers a a' f f' line line') (hg : Token.PlaceOnly g)
    (first : Token) (rest : List Token) :
    nameForm a' f' (g first) (rest.map g) line' =
      Option.map (placedRest g) <$> nameForm a f first rest line := by
  have hparen := headAny_map_placed (·.isSymbol "(") (hg.isSymbol · "(") rest
  have hgeneric : (if (g first).startsUpper then genericCall? (g first :: rest.map g) else none) =
      (if first.startsUpper then genericCall? (first :: rest) else none).map (placedRest g) := by
    rw [← List.map_cons, genericCall?_placed hg, hg.startsUpper]
    split <;> rfl
  unfold nameForm
  dsimp only
  rw [hgeneric, hparen, hg.group?_map, hg.startsUpper, hg.text]
  cases (if first.startsUpper then genericCall? (first :: rest) else none) with
  | some r => simp
  | none =>
      dsimp only [Option.map_none]
      split
      · cases group? rest with
        | none => simp
        | some p =>
            dsimp only [Option.map_some]
            split
            · simp [placedRest]
            · rw [h.callType, map_bind]
              simp [placedRest]
      · exact plainName_placed h hg first rest

/-! ### Chains and expressions -/

omit [LawfulMonad m] in
theorem chain_placed (h : SameAnswers a a' f f' line line') (hg : Token.PlaceOnly g) (current : Ty)
    (tokens : List Token) : chain a' f' current (tokens.map g) = chain a f current tokens := by
  cases tokens with
  | nil => rw [List.map_nil, chain, chain]
  | cons t ts =>
      have hgroup := hg.group?_map (t :: ts)
      rw [List.map_cons] at hgroup
      rw [List.map_cons, chain_cons, chain_cons, hgroup, hg.isSymbol, hg.isSymbol, hg.isSymbol]
      congr 1
      · -- A member, which may be called.
        cases ts with
        | nil => rfl
        | cons member more =>
            simp only [List.map_cons]
            rw [afterArguments?_placed hg, hg.kind, hg.text, h.methodType]
            congr 1
            cases hafter : afterArguments? more with
            | none => rfl
            | some after =>
                have := afterArguments?_length hafter
                refine congrArg (Expression.methodType a f member.text current >>= ·)
                  (funext fun next => ?_)
                exact chain_placed h hg next after
      · -- An index or a call of a value.
        cases hparts : group? (t :: ts) with
        | none => rfl
        | some p =>
            have := (group?_length hparts).2
            simp only [Option.map_some, Option.elim_some, chain_placed h hg _ p.2]
termination_by tokens.length
decreasing_by
  all_goals simp only [List.length_cons] at *
  all_goals omega

variable [MonadLiftT (Except Fault) m]

mutual

/-- The type of an expression does not depend on where its tokens stand. -/
theorem inferTokens_placed (h : SameAnswers a a' f f' line line') (hg : Token.PlaceOnly g)
    (tokens : List Token) :
    inferTokens a' f' (tokens.map g) line' = inferTokens a f tokens line := by
  have hstrip := length_stripParens_le tokens
  have harrow := any_map_placed (·.isSymbol "=>") (hg.isSymbol · "=>") (stripParens tokens)
  have hbang := headAny_map_placed (·.isSymbol "!") (hg.isSymbol · "!") (stripParens tokens)
  rw [inferTokens_eq, inferTokens_eq, hg.stripParens_map, List.isEmpty_map, harrow, hbang]
  by_cases hempty : stripParens tokens = []
  · rw [hempty]
    rfl
  rw [inferChain_placed h hg (stripParens tokens) hempty, splitTop_placed hg, splitTop_placed hg,
    splitTop_placed hg, List.isEmpty_map, List.isEmpty_map, List.isEmpty_map, List.any_map,
    hg.operands_map, literalArithmetic?_placed hg, List.mapM_map]
  by_cases hnone : splitTop isArithmeticOperator (stripParens tokens) = []
  · rw [hnone]
    rfl
  · have hparts : (operands isArithmeticOperator (stripParens tokens)).mapM
          ((fun part => inferTokens a' f' part line') ∘ List.map g) =
        (operands isArithmeticOperator (stripParens tokens)).mapM
          fun part => inferTokens a f part line := by
      refine mapM_congr_of_mem fun part hpart => ?_
      have := length_lt_of_mem_operands hpart hnone
      exact inferTokens_placed h hg part
    rw [hparts]
    simp only [Function.comp_def, hg.text]
termination_by 3 * tokens.length + 2

theorem inferChain_placed (h : SameAnswers a a' f f' line line') (hg : Token.PlaceOnly g)
    (tokens : List Token) (hne : tokens ≠ []) :
    inferChain a' f' (tokens.map g) line' = inferChain a f tokens line := by
  rw [inferChain, inferChain, inferPrimary_placed h hg tokens hne, bind_map_left]
  congr 1
  funext found
  cases found with
  | none => rfl
  | some r => exact chain_placed h hg r.1 r.2
termination_by 3 * tokens.length + 1

theorem inferPrimary_placed (h : SameAnswers a a' f f' line line') (hg : Token.PlaceOnly g)
    (tokens : List Token) (hne : tokens ≠ []) :
    inferPrimary a' f' (tokens.map g) line' =
      Option.map (placedRest g) <$> inferPrimary a f tokens line := by
  match tokens, hne with
  | [], hne => exact absurd rfl hne
  | first :: rest, _ =>
      have hgroup := hg.group?_map (first :: rest)
      rw [List.map_cons] at hgroup
      rw [List.map_cons, inferPrimary_cons, inferPrimary_cons, literalType?_placed hg, hgroup,
        List.isEmpty_map, h.thisType, nameForm_placed h hg]
      cases literalType? first with
      | some t => simp [placedRest]
      | none =>
          rw [Option.elim_none, Option.elim_none, hg.isSymbol, hg.isSymbol, hg.isSymbol,
            hg.isSymbol, hg.isKeyword, hg.kind]
          split
          · -- A minus sign takes the whole chain behind it.
            rename_i hminus
            rw [Bool.and_eq_true] at hminus
            rw [inferChain_placed h hg rest (by simpa using hminus.2), map_bind]
            congr 1
            funext found
            cases found <;> simp [placedRest]
          · split
            · -- The elements of a list are shorter than the list.
              cases hparts : group? (first :: rest) with
              | none => simp
              | some p =>
                  have hinside := (group?_length hparts).1
                  have helements : ((splitCommas p.1).map (List.map g)).mapM
                        (fun part => inferTokens a' f' part line') =
                      (splitCommas p.1).mapM fun part => inferTokens a f part line := by
                    rw [List.mapM_map]
                    refine mapM_congr_of_mem fun part hpart => ?_
                    have := length_le_of_mem_splitCommas hpart
                    exact inferTokens_placed h hg part
                  simp [hg.splitCommas_map, helements, placedRest]
            · split
              · cases group? (first :: rest) <;> simp [placedRest]
              · split
                · -- What stands in parentheses is shorter too.
                  cases hparts : group? (first :: rest) with
                  | none => simp
                  | some p =>
                      have hinside := (group?_length hparts).1
                      simp [inferTokens_placed h hg p.1, placedRest]
                · -- `this`, a name, or no expression at all.
                  split
                  · simp [placedRest]
                  · split
                    · rfl
                    · simp
termination_by 3 * tokens.length
decreasing_by
  all_goals simp only [List.length_cons] at *
  all_goals omega

end

end

end Expression

end Polyloft
