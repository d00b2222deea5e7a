import Polyloft.Rule

/-!
# Polyloft.Rule.Spelling

Rules about habits from other languages: words for logical operators, ranges with two dots, and
other ways to write interpolation.
-/

namespace Polyloft.Rule

/-- The operator that a word stands for elsewhere. -/
def wordOperator? : String → Option String
  | "and" => some "&&"
  | "or" => some "||"
  | "not" => some "!"
  | _ => none

/-- Is the word used as an operator, judging by its neighbours? -/
def isUsedAsOperator (s : Spot) : Bool :=
  s.next?.any (fun t => !t.isSymbolIn ["=", ".", ",", ")", ":"]) &&
    match s.previous? with
    | none => s.token.text == "not"
    | some p => !p.isSymbol "." && !p.isKeywordIn declarationWords

/-- A word used as an operator. -/
def wordOperatorAt? (s : Spot) : Option Finding :=
  (wordOperator? s.token.text).bind fun operator =>
    if s.token.kind == .identifier && isUsedAsOperator s then
      some ⟨s.token.range, "Use '" ++ operator ++ "' instead of '" ++ s.token.text ++ "'"⟩
    else none

/-- Words used as logical operators. -/
def wordOperator : Rule :=
  .ofFindings "word-operator" "PF-E010" .error
    "``and`` / ``or`` / ``not`` instead of ``&&`` / ``||`` / ``!``." fun a =>
      a.document.lines.flatMap fun line => (spots line.codeTokens).filterMap wordOperatorAt?

/-- Ranges written with two dots. -/
def twoDotRange : Rule :=
  .ofFindings "two-dot-range" "PF-E011" .error "Ranges are written ``a...b``." fun a =>
    (a.document.codeTokens.filter fun t => t.kind == .operator && t.text == "..").map fun t =>
      ⟨t.range, "Use '...' for ranges instead of '..'"⟩

/-- Where `${` stands in a text, counted from `index`. -/
def dollarBraces (index : Nat) : List Char → List Nat
  | [] => []
  | c :: cs =>
    if c == '$' && cs.head? == some '{' then index :: dollarBraces (index + 1) cs
    else dollarBraces (index + 1) cs

/-- Where the first `#` without a brace behind it stands, counted from `index`. -/
def bareHash? (index : Nat) : List Char → Option Nat
  | [] => none
  | c :: cs =>
    if c == '#' && cs.head? != some '{' then some index else bareHash? (index + 1) cs

/-- The string literals of a document. -/
def stringTokens (doc : Document) : List Token :=
  doc.codeTokens.filter fun t => t.kind == .string

/-- Interpolation written with a dollar sign. -/
def dollarInterpolation : Rule :=
  .ofFindings "dollar-interpolation" "PF-E012" .error
    "String interpolation is written ``#\x7bexpr\x7d``." fun a =>
      (stringTokens a.document).flatMap fun t =>
        (dollarBraces t.column t.text.toList).map fun (start : Nat) =>
          ⟨⟨t.line, start, start + 2⟩,
            "Use '#\x7b' for string interpolation instead of '$\x7b'"⟩

/-- A hash in a string literal that starts no interpolation. -/
def missedInterpolation : Rule :=
  .ofFindings "missed-interpolation" "PF-H202" .hint
    "A ``#`` in a string that is not followed by ``\x7b``." fun a =>
      (stringTokens a.document).filterMap fun t =>
        (bareHash? t.column t.text.toList).map fun (start : Nat) =>
          ⟨⟨t.line, start, start + 1⟩,
            "Possible missed interpolation: use '#\x7bexpression\x7d'"⟩

end Polyloft.Rule
