/-!
# Polyloft.Fault

What can go wrong inside the analysis of a text. Every operation that is not defined on all of its
inputs says so by a fault: a line that the document does not have, a division by a width of zero,
a text that is no numeral, a type without a name, a name that is no text, an expression without a
first token. A rule that meets a fault contributes nothing, a query that meets one has no answer.
-/

namespace Polyloft

/-- Why a computation could not go on. -/
inductive Fault where
  /-- The document has no line of this number. -/
  | missingLine (index : Int)
  /-- The width of an indentation step is zero. -/
  | zeroWidth
  /-- A text was read as a number and is none. -/
  | notNumeral (text : String)
  /-- The name of a type was asked for that has none. -/
  | notNamed
  /-- Something is named by a scalar that is no text. -/
  | notText
  | other (reason : String)
deriving DecidableEq, Repr

/-- The first token of an expression was asked for and there is none. -/
def Fault.noToken : Fault := .other "the expression has no tokens"

/-- The wording of a fault. -/
def Fault.message : Fault → String
  | .missingLine index => "there is no line " ++ toString index
  | .zeroWidth => "the width of an indentation step is zero"
  | .notNumeral text => "not a number: " ++ text
  | .notNamed => "the type has no name"
  | .notText => "the name is not a text"
  | .other reason => reason

end Polyloft
