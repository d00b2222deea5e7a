/-!
# Polyloft.Failure

How failures of the configuration layer are worded. Analysing source text never fails; a broken
catalog or an invalid setting does, and says what it is about.
-/

namespace Polyloft

/-- What a failure is about. -/
inductive FailureSubject where
  | general
  | catalog (entry : Option String)
  | setting (key : String)
deriving DecidableEq, Repr

/-- A failure, with an optional hint on how to mend it. -/
structure Failure where
  subject : FailureSubject
  detail : String
  hint : Option String := none
deriving DecidableEq, Repr

/-- The text of an optional part, if it is there and not empty. -/
def given? (s : Option String) : Option String :=
  s.filter (· != "")

/-- The message of a failure: what it is about, the detail, and the hint. -/
def Failure.message (f : Failure) : String :=
  let body :=
    match f.subject with
    | .general => f.detail
    | .catalog entry =>
      match given? entry with
      | some e => e ++ ": " ++ f.detail
      | none => f.detail
    | .setting key => "invalid setting '" ++ key ++ "': " ++ f.detail
  match given? f.hint with
  | some hint => body ++ " (hint: " ++ hint ++ ")"
  | none => body

end Polyloft
