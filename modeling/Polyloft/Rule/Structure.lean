import Polyloft.Rule
import Polyloft.Token.Brackets

/-!
# Polyloft.Rule.Structure

Rules about the shape of a document: string literals and braces that are not closed, blocks that
are not ended, ends that close nothing, and malformed function headers.
-/

namespace Polyloft.Rule

/-- The first string literal of a line that is not closed. -/
def unterminatedIn (line : Line) : Option Finding :=
  (line.tokens.find? fun t => t.kind == .string && !t.terminated).map fun t =>
    ⟨⟨line.index, t.column, line.text.length⟩, "Unclosed string literal"⟩

/-- String literals that are not closed on their line. -/
def unterminatedString : Rule :=
  .ofFindings "unterminated-string" "PF-E001" .error
    "String literal with no closing quote on its line." fun a =>
      a.document.lines.filterMap unterminatedIn

/-- Closing braces without a partner in order, then opening braces without one in order; `pending`
holds the opening braces still without a partner, latest first. -/
def unmatchedBracesFrom (pending : List Token) : List Token → List Token
  | [] => pending.reverse
  | t :: ts =>
    if t.isSymbol "\x7b" then unmatchedBracesFrom (t :: pending) ts
    else if t.isSymbol "\x7d" then
      match pending with
      | [] => t :: unmatchedBracesFrom [] ts
      | _ :: rest => unmatchedBracesFrom rest ts
    else unmatchedBracesFrom pending ts

/-- The braces of a token sequence that have no partner. -/
def unmatchedBraces (tokens : List Token) : List Token :=
  unmatchedBracesFrom [] tokens

/-- Braces without a partner anywhere in the document. -/
def unmatchedBrace : Rule :=
  .ofFindings "unmatched-brace" "PF-W101" .warning
    "Curly braces matched across the whole token stream." fun a =>
      (unmatchedBraces a.document.codeTokens).map fun t => ⟨t.range, "Unmatched brackets"⟩

/-- Blocks that are still open at the end. -/
def missingEnd : Rule :=
  .ofChecks "missing-end" "PF-W102" .warning "Block still open at the end of the document."
    fun ctx => (ctx.analysis.tree.unclosed.filterMap ctx.analysis.tree.frame?).mapM fun f => do
      let line ← ctx.analysis.document.lineAt f.start
      return ⟨line.codeRange, "Block statement may be missing corresponding \"end\" keyword"⟩

/-- Lines that end a block although none is open. -/
def strayEnd : Rule :=
  .ofChecks "stray-end" "PF-W103" .warning "``end`` with no open block to close." fun ctx =>
    ctx.analysis.tree.stray.mapM fun index => do
      let line ← ctx.analysis.document.lineAt index
      return ⟨line.codeRange, "\"end\" does not close any open block"⟩

/-- A function header without a name or without its parameter list. -/
def malformedHeader? (tokens : List Token) : Option Finding :=
  match tokens.dropWhile Token.isDeclarationPrefix with
  | [] => none
  | word :: rest =>
    let isComplete := rest.head?.any (·.kind == .identifier) &&
      rest.tail.head?.any (·.isSymbol "(")
    if word.isKeyword "def" && !isComplete then
      some ⟨word.rangeTo (rest.headD word),
        "Function definition must be followed by parameter list in parentheses"⟩
    else none

/-- Function headers that lack a name or a parameter list. -/
def invalidFunctionHeader : Rule :=
  .ofFindings "invalid-function-header" "PF-E002" .error
    "``def`` must be followed by a name and a parameter list." fun a =>
      a.document.lines.filterMap fun line => malformedHeader? line.codeTokens

end Polyloft.Rule
