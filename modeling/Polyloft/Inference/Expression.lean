import Polyloft.Analysis
import Polyloft.Declaration.Lineage
import Polyloft.Token.Brackets

/-!
# Polyloft.Inference.Expression

The types of expressions, given a way to find the types of declared names. An expression is a
sequence of code tokens, and the first form that fits decides:

```text
"text"   42   3.14   true        String, Int, Float, Bool
nil   null                       Any
[a, b, c]                        Array<T> if all elements have one named type T, else Array<Any>
{k: v}                           Map
Name(...)   Name<T>(...)         a value of that type
name(...)                        the declared or inferred return type
receiver.member(...)             looked up in the type of the receiver
xs[i]                            the element type
comparison, logical              Bool
a...b                            Range
arithmetic                       Float, Int or String
anything else                    Any
```

Where inference knows nothing the answer is `Any`. A primary expression without tokens is a fault;
it is never met, because a chain is only begun where there is a token. How the type of a declaration
is found, and in which monad, is left open: `Polyloft.Inference` remembers the types of
declarations, so that an answer may depend on the questions before it.
-/

namespace Polyloft

/-! ### Members -/

/-- Where the type of a member comes from. -/
inductive MemberSource where
  | declared (d : Declaration)
  | builtin (t : Ty)

/-- A member that a class-like has by itself: declared in it, or one every enumeration value
has. -/
def DeclarationTable.ownMember? (table : DeclarationTable) (owner : Declaration) (name : String) :
    Option MemberSource :=
  match (table.member? owner.name name).filter (·.form != .enumValue) with
  | some d => some (.declared d)
  | none =>
    if owner.form == .enumType then
      if name == "name" then some (.builtin .string)
      else if name == "ordinal" then some (.builtin .int)
      else none
    else none

/-- A member of a class-like or of the nearest parent that has it, when those in `seen` were asked
before. A parent that was asked before is not asked again. -/
def DeclarationTable.memberSourceFrom? (table : DeclarationTable) (name : String)
    (seen : List String) (owner : String) (hfresh : owner ∉ seen) : Option MemberSource :=
  match h : table.classLike? owner with
  | none => none
  | some klass =>
    match table.ownMember? klass name with
    | some source => some source
    | none =>
      match klass.parent with
      | none => none
      | some parent =>
        if hparent : parent ∈ owner :: seen then none
        else
          have := table.unseenCount_cons_lt hfresh h
          table.memberSourceFrom? name (owner :: seen) parent hparent
termination_by table.unseenCount seen

/-- A member of a class-like or of the nearest parent that has it. -/
def DeclarationTable.memberSource? (table : DeclarationTable) (owner name : String) :
    Option MemberSource :=
  table.memberSourceFrom? name [] owner List.not_mem_nil

namespace Expression

variable {m : Type → Type} [Monad m] (a : Analysis) (typeOf : Declaration → m Ty)

/-- The type of a member of a class-like. -/
def memberType? (owner name : String) : m (Option Ty) :=
  match a.table.memberSource? owner name with
  | none => pure none
  | some (.builtin t) => pure (some t)
  | some (.declared d) => some <$> typeOf d

/-- The type of `receiver.method(...)` for a receiver of a named type. The catalog comes before
what the document declares. -/
def namedMethodType (name : String) (args : List Ty) (method : String) : m Ty :=
  match a.catalog.methodType? (.named name args) method with
  | some t => pure t
  | none => do
    match ← memberType? a typeOf name method with
    | some t => pure t
    | none => pure (if method == "toString" then .string else .any)

mutual

/-- The type of `receiver.method(...)` or `receiver.method`. -/
def methodType (method : String) : Ty → m Ty
  | .any => pure .any
  | .named name args => namedMethodType a typeOf name args method
  | .union members => Ty.unify <$> methodTypes method members

/-- The types of a method for the members of a union, up to the first that is not known. -/
def methodTypes (method : String) : List Ty → m (List Ty)
  | [] => pure []
  | t :: ts => do
    let found ← methodType method t
    if found.isAny then pure [found]
    else return found :: (← methodTypes method ts)

end

/-- The type of `this` on a line: the class around it. -/
def thisType (line : Int) : Ty :=
  let owner? := (a.tree.around line).findSome? fun f =>
    if f.kind == .classLike then f.name else none
  match owner? with
  | some owner => .simple owner
  | none => .any

/-! ### Names -/

/-- The type of the call `name(...)`. -/
def callType (name : String) (line : Int) : m Ty :=
  let declared := (a.visible? name line).or
    ((a.table.lookup? name).filter fun d => d.kind == .function)
  match declared.filter fun d => d.kind == .function with
  | some d => typeOf d
  | none => pure (((a.catalog.global? name).map CatalogFunction.returnType).getD .any)

/-- The written type of a constructor with type arguments, `Name<T>(...)`, and what follows it. -/
def genericCall? (tokens : List Token) : Option (Ty × List Token) :=
  (matchingAngle? tokens 1).bind fun close =>
    let call := tokens.drop (close + 1)
    if call.head?.any (·.isSymbol "(") then
      (group? call).map fun g =>
        let words := (tokens.take (close + 1)).map fun t => if t.text == "," then ", " else t.text
        (Ty.ofString (String.join words), g.2)
    else none

/-- The tokens after an argument list, if there is one; `none` if it is not closed. -/
def afterArguments? (tokens : List Token) : Option (List Token) :=
  if tokens.head?.any (·.isSymbol "(") then (group? tokens).map Prod.snd else some tokens

theorem afterArguments?_length {tokens after : List Token}
    (h : afterArguments? tokens = some after) : after.length ≤ tokens.length := by
  unfold afterArguments? at h
  split at h
  · obtain ⟨g, hg, rfl⟩ := Option.map_eq_some_iff.1 h
    exact Nat.le_of_lt (group?_length hg).2
  · simp_all

/-- What an enumeration offers without a value: the types of its own functions. -/
def enumStatic? (enum member : String) : Option Ty :=
  match member with
  | "values" => some (.array (.simple enum))
  | "valueOf" => some (.simple enum)
  | "names" => some (.array .string)
  | "size" => some .int
  | _ => none

/-- The type of a member of a package; unknown members have type `Any`. -/
def packageMemberType (p : CatalogPackage) (member : String) : Ty :=
  match p.member? member with
  | some (.function f) => f.returnType
  | some (.constant c) => Ty.ofString c.type
  | none => .any

/-- The type of `Name.member` for a class-like. -/
def classAccess (owner : Declaration) (member : String) : m Ty :=
  let static? :=
    if owner.form == .enumType then
      if (a.table.enumValues owner.name).any (·.name == member) then some (Ty.simple owner.name)
      else enumStatic? owner.name member
    else none
  match static? with
  | some t => pure t
  | none => (·.getD .any) <$> memberType? a typeOf owner.name member

/-- The type of `Name.member` or `Name.member(...)` for a package or a class-like; `none` if the
name is neither, and then it stands for a value. -/
def staticAccess (name : String) (member : String) (line : Int) : m (Option Ty) :=
  match a.catalog.package? name, a.table.classLike? name with
  | some p, klass =>
    if (a.visible? name line).isSome && klass.isNone then pure none
    else pure (some (packageMemberType p member))
  | none, some owner => some <$> classAccess a typeOf owner member
  | none, none => pure none

/-- The type of a plain name. -/
def nameType (name : String) (line : Int) : m Ty :=
  match a.visible? name line with
  | some d => typeOf d
  | none => pure (if (a.table.classLike? name).isSome then .simple name else .any)

/-- The type of a name used as a value or as `Name.member`, and what follows. -/
def plainName (first : Token) (rest : List Token) (line : Int) : m (Option (Ty × List Token)) :=
  let value : m (Option (Ty × List Token)) := do
    return some (← nameType a typeOf first.text line, rest)
  match rest with
  | dot :: member :: more =>
    if dot.isSymbol "." then
      match afterArguments? more with
      | none => value
      | some after => do
        match ← staticAccess a typeOf first.text member.text line with
        | some t => pure (some (t, after))
        | none => value
    else value
  | _ => value

/-- The type of an expression that starts with a name, and what follows; `none` if an argument
list is not closed. -/
def nameForm (first : Token) (rest : List Token) (line : Int) :
    m (Option (Ty × List Token)) :=
  let generic? := if first.startsUpper then genericCall? (first :: rest) else none
  match generic? with
  | some r => pure (some r)
  | none =>
    if rest.head?.any (·.isSymbol "(") then
      match group? rest with
      | none => pure none
      | some (_, after) =>
        if first.startsUpper then pure (some (.simple first.text, after))
        else do return some (← callType a typeOf first.text line, after)
    else plainName a typeOf first rest line

/-! ### Chains -/

/-- Follows `.member`, `(args)` and `[i]` from a value of the given type; `none` if something else
comes. -/
def chain (current : Ty) (tokens : List Token) : m (Option Ty) :=
  match tokens with
  | [] => pure (some current)
  | t :: ts =>
    if t.isSymbol "." then
      match ts with
      | [] => pure none
      | member :: more =>
        if member.kind == .identifier || member.kind == .keyword then
          match h : afterArguments? more with
          | none => pure none
          | some after => do
            have := afterArguments?_length h
            chain (← methodType a typeOf member.text current) after
        else pure none
    else if t.isSymbol "[" then
      match h : group? (t :: ts) with
      | none => pure none
      | some (_, after) =>
        have := (group?_length h).2
        chain current.element after
    else if t.isSymbol "(" then
      match h : group? (t :: ts) with
      | none => pure none
      | some (_, after) =>
        have := (group?_length h).2
        chain .any after
    else pure none
termination_by tokens.length
decreasing_by
  all_goals simp only [List.length_cons] at *
  all_goals omega

/-! ### Expressions -/

/-- Operators whose result is a truth value. -/
def isTruthOperator (s : String) : Bool :=
  ["&&", "||", "==", "!=", "<", ">", "<=", ">=", "instanceof"].contains s

/-- Operators that make a range. -/
def isRangeOperator (s : String) : Bool :=
  ["...", ".."].contains s

/-- The arithmetic operators. -/
def isArithmeticOperator (s : String) : Bool :=
  ["+", "-", "*", "/", "%"].contains s

/-- The result of arithmetic that its written form alone decides: an operand that is a fractional
number, or nothing but whole numbers. -/
def literalArithmetic? (tokens : List Token) (parts : List (List Token)) : Option Ty :=
  if parts.isEmpty then some .any
  else if parts.any fun p => match p with | [t] => t.kind == .float | _ => false then some .float
  else if tokens.all fun t =>
      t.kind == .int || t.kind == .operator || t.isSymbol "(" || t.isSymbol ")" then some .int
  else none

/-- The result of arithmetic on operands of the given types. -/
def arithmeticType (hasPlus : Bool) (types : List Ty) : Ty :=
  if types.any Ty.isFloating then .float
  else if hasPlus && types.any (Ty.same · .string) then .string
  else if types.all (Ty.same · .int) then .int
  else .any

/-- The type of an array literal with elements of the given types. -/
def arrayType : List Ty → Ty
  | [] => .array .any
  | t :: ts =>
    match t with
    | .named _ _ => if ts.all (Ty.same t ·) then .array t else .array .any
    | _ => .array .any

/-- The type of a literal that is a single token. -/
def literalType? (t : Token) : Option Ty :=
  match t.kind with
  | .string => some .string
  | .int => some .int
  | .float => some .float
  | .keyword =>
    if t.text == "true" || t.text == "false" then some .bool
    else if t.text == "nil" || t.text == "null" then some .any
    else none
  | _ => none

section

variable [MonadLiftT (Except Fault) m]

mutual

/-- The type of an expression as seen from a line. -/
def inferTokens (tokens : List Token) (line : Int) : m Ty := do
  let inner := stripParens tokens
  have : inner.length ≤ tokens.length := length_stripParens_le tokens
  if inner.isEmpty || inner.any (·.isSymbol "=>") then pure .any
  else
    match ← inferChain inner line with
    | some t => pure t
    | none =>
      if !(splitTop isTruthOperator inner).isEmpty || inner.head?.any (·.isSymbol "!") then
        pure .bool
      else if !(splitTop isRangeOperator inner).isEmpty then pure .range
      else if h : splitTop isArithmeticOperator inner = [] then pure .any
      else
        let parts := operands isArithmeticOperator inner
        match literalArithmetic? inner parts with
        | some t => pure t
        | none => do
          let types ← parts.attach.mapM fun ⟨part, hpart⟩ =>
            have := length_lt_of_mem_operands hpart h
            inferTokens part line
          let hasPlus := (splitTop isArithmeticOperator inner).any fun op => op.2.text == "+"
          pure (arithmeticType hasPlus types)
termination_by 3 * tokens.length + 2
decreasing_by
  all_goals have := length_stripParens_le tokens
  all_goals omega

/-- The type of a primary expression followed by member accesses, calls and indexing; `none` if
the tokens are not of that form. -/
def inferChain (tokens : List Token) (line : Int) : m (Option Ty) := do
  match ← inferPrimary tokens line with
  | none => pure none
  | some (t, rest) => chain a typeOf t rest
termination_by 3 * tokens.length + 1

/-- The type of the primary expression at the start, and what follows. -/
def inferPrimary (tokens : List Token) (line : Int) : m (Option (Ty × List Token)) :=
  match tokens with
  | [] => liftM (Except.error Fault.noToken)
  | first :: rest =>
    match literalType? first with
    | some t => pure (some (t, rest))
    | none =>
      if first.isSymbol "-" && !rest.isEmpty then do
        return (← inferChain rest line).map (·, [])
      else if first.isSymbol "[" then
        match h : group? (first :: rest) with
        | none => pure none
        | some (inside, after) => do
          let types ← (splitCommas inside).attach.mapM fun ⟨part, hpart⟩ =>
            have := length_le_of_mem_splitCommas hpart
            have := (group?_length h).1
            inferTokens part line
          pure (some (arrayType types, after))
      else if first.isSymbol "\x7b" then
        match group? (first :: rest) with
        | none => pure none
        | some (_, after) => pure (some (.map, after))
      else if first.isSymbol "(" then
        match h : group? (first :: rest) with
        | none => pure none
        | some (inside, after) => do
          have := (group?_length h).1
          return some (← inferTokens inside line, after)
      else if first.isKeyword "this" then pure (some (thisType a line, rest))
      else if first.kind == .identifier then nameForm a typeOf first rest line
      else pure none
termination_by 3 * tokens.length
decreasing_by
  all_goals simp only [List.length_cons] at *
  all_goals omega

end

/-- The type of an expression given as text. -/
def inferText (text : List Char) (line : Int) : m Ty :=
  inferTokens a typeOf (codeTokens (lexLine text line.toNat false).1) line

end

end Expression

end Polyloft
