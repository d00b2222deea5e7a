import Polyloft.Decimal
import Polyloft.Rule
import Polyloft.Text.Digit

/-!
# Polyloft.Rule.Typing

Rules that compare inferred types: assignments, comparisons and member access. Division by a
literal zero is found here too.
-/

namespace Polyloft.Rule

/-- Runs a check on each item, one after the other, and keeps what they find. -/
def collectFindings {α : Type} (check : α → Infer (Option Finding)) (items : List α) :
    Infer (List Finding) := do
  return (← items.mapM check).filterMap id

/-! ### Assignments -/

/-- The message for a value that does not fit. -/
def mismatchMessage (source : Ty) (name : String) (target : Ty) : String :=
  "Type mismatch: cannot assign " ++ source.render ++ " to '" ++ name ++ "' of type " ++
    target.render

/-- An initializer that does not fit the written type. -/
def initializerMismatch (a : Analysis) (d : Declaration) : Infer (Option Finding) :=
  match d.form.mutability?, d.declaredType, d.initializer with
  | some _, some target, some text =>
    if text == "" then pure none
    else do
      let source ← a.infer text.toList d.line
      if Ty.assignable source target then pure none
      else pure (some ⟨d.range, mismatchMessage source d.name target⟩)
  | _, _, _ => pure none

/-- The variable that a line assigns a value to, with its name and the value. -/
def assignedVariable? (a : Analysis) (line : Line) : Option (Declaration × Token × List Token) :=
  (assignment? line.codeTokens).bind fun (name, op, value) =>
    if op.text == "=" && !value.isEmpty then
      ((a.visible? name.text line.index).filter fun d => d.isVariable && !d.isConstant).map
        (·, name, value)
    else none

/-- An assigned value that does not fit the type of the variable. -/
def assignmentMismatch (a : Analysis) (line : Line) : Infer (Option Finding) :=
  match assignedVariable? a line with
  | none => pure none
  | some (d, name, value) => do
    let target ← a.declarationType d
    if target.isAny then pure none
    else do
      let source ← a.inferTokens value line.index
      if Ty.assignable source target then pure none
      else pure (some ⟨name.range, mismatchMessage source name.text target⟩)

/-- Values that do not fit the variables they are assigned to. -/
def assignmentTypeMismatch : Rule :=
  .ofInference "assignment-type-mismatch" "PF-W108" .warning
    "Assigned value incompatible with the variable's known type." fun a => do
      let declared ← collectFindings (initializerMismatch a) a.table.declarations
      let assigned ← collectFindings (assignmentMismatch a) a.document.lines
      pure (declared ++ assigned)

/-! ### Comparisons -/

/-- The comparison operators. -/
def comparisonOperators : List String := ["==", "!=", "<", ">", "<=", ">="]

/-- Two plain names compared with each other. -/
def comparedNames? (s : Spot) : Option (Token × Token) :=
  match s.previous?, s.next? with
  | some left, some right =>
    if s.token.kind == .operator && comparisonOperators.contains s.token.text &&
        left.kind == .identifier && right.kind == .identifier &&
        !s.beforePrevious?.any (·.isSymbol ".") &&
        !s.afterNext?.any (·.isSymbolIn [".", "(", "["]) then
      some (left, right)
    else none
  | _, _ => none

/-- A comparison of two variables whose types have nothing in common. -/
def comparisonMismatch (a : Analysis) (line : Nat) (s : Spot) : Infer (Option Finding) :=
  match comparedNames? s with
  | none => pure none
  | some (left, right) =>
    match (a.visible? left.text line).filter Declaration.isVariable,
        (a.visible? right.text line).filter Declaration.isVariable with
    | some l, some r => do
      let lt ← a.declarationType l
      let rt ← a.declarationType r
      if Ty.comparable lt rt then pure none
      else pure (some ⟨⟨line, left.column, right.stop⟩,
        "Comparing incompatible types " ++ lt.render ++ " and " ++ rt.render⟩)
    | _, _ => pure none

/-- The code tokens of a document with their neighbours on the line and its number. -/
def documentSpots (doc : Document) : List (Nat × Spot) :=
  doc.lines.flatMap fun line => (spots line.codeTokens).map (line.index, ·)

/-- Comparisons of variables whose types have nothing in common. -/
def incompatibleComparison : Rule :=
  .ofInference "incompatible-comparison" "PF-W109" .warning
    "Two variables of unrelated types compared with each other." fun a =>
      collectFindings (fun (line, s) => comparisonMismatch a line s) (documentSpots a.document)

/-! ### Division -/

/-- A numeral: digits, and possibly a point with digits behind it. -/
def isNumeral (text : List Char) : Bool :=
  let whole := text.takeWhile (· != '.')
  let fraction := text.dropWhile (· != '.')
  whole != [] && whole.all Text.isDecimal &&
    match fraction with
    | [] => true
    | _ :: digits => digits != [] && digits.all Text.isDecimal

/-- Is a numeral that of zero? -/
def isZeroNumeral (text : List Char) : Except Fault Bool :=
  if isNumeral text then
    let whole := text.takeWhile (· != '.')
    let fraction := (text.dropWhile (· != '.')).drop 1
    .ok (Decimal.mk (Text.digitsValue (whole ++ fraction)) (-(fraction.length : Int))).isZero
  else .error (.notNumeral (String.ofList text))

/-- A division by a literal zero. -/
def zeroDivision? (s : Spot) : Except Fault (Option Finding) :=
  match s.next? with
  | none => .ok none
  | some operand =>
    if s.token.isSymbolIn ["/", "%", "/=", "%="] &&
        (operand.kind == .int || operand.kind == .float) then do
      if (← isZeroNumeral operand.text.toList) && !s.afterNext?.any (·.isSymbol ".") then
        return some ⟨s.token.rangeTo operand, "Division by zero"⟩
      else return none
    else .ok none

/-- Divisions by a literal zero. -/
def divisionByZero : Rule :=
  .ofChecks "division-by-zero" "PF-E009" .error "Division or modulo by the literal zero." fun ctx =>
    do
      let found ← (documentSpots ctx.analysis.document).mapM fun (_, s) => zeroDivision? s
      return found.filterMap id

/-! ### Members -/

/-- A member access on a plain name: the name and the member. -/
def accessedMember? (s : Spot) : Option (Token × Token) :=
  match s.previous?, s.next? with
  | some receiver, some member =>
    if s.token.isSymbol "." && receiver.kind == .identifier &&
        (member.kind == .identifier || member.kind == .keyword) &&
        !s.beforePrevious?.any (·.isSymbol ".") then
      some (receiver, member)
    else none
  | _, _ => none

/-- A member that the package does not have. -/
def unknownPackageMember? (a : Analysis) (receiver member : Token) : Option Finding :=
  if (a.table.classLike? receiver.text).isNone &&
      (a.catalog.packageMember? receiver.text member.text).isNone then
    some ⟨member.range, "Unknown member '" ++ member.text ++ "' in package " ++ receiver.text⟩
  else none

/-- A method that values of a built-in type do not have. -/
def unknownMethod? (a : Analysis) (type : Ty) (member : Token) : Option Finding :=
  match type with
  | .named name _ =>
    if (a.catalog.type? name).isSome && (a.catalog.method? type member.text).isNone &&
        member.text != "toString" then
      some ⟨member.range, "Unknown method '" ++ member.text ++ "' for type " ++ type.render⟩
    else none
  | _ => none

/-- A member access that the catalog does not allow. -/
def unknownMemberAt (a : Analysis) (line : Nat) (s : Spot) : Infer (Option Finding) :=
  match accessedMember? s with
  | none => pure none
  | some (receiver, member) =>
    match a.visible? receiver.text line with
    | none =>
      if (a.catalog.package? receiver.text).isSome then
        pure (unknownPackageMember? a receiver member)
      else pure none
    | some d =>
      if d.isVariable && s.afterNext?.any (·.isSymbol "(") then do
        return unknownMethod? a (← a.declarationType d) member
      else pure none

/-- Member accesses that the catalog does not allow. -/
def unknownMember : Rule :=
  .ofInference "unknown-member" "PF-W110" .warning
    "Package members and built-in type methods checked against the catalog." fun a =>
      collectFindings (fun (line, s) => unknownMemberAt a line s) (documentSpots a.document)

end Polyloft.Rule
