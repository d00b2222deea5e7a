import Polyloft.Inference

/-!
# Polyloft.Declaration.Signature

How a declaration is shown: the header of a class-like, the parameters and return type of a
function, the type of a variable. Types that are not written are inferred.
-/

namespace Polyloft.Analysis

variable (a : Analysis)

/-- The header of a class-like. -/
def classSignature (d : Declaration) : String :=
  let generics :=
    if d.typeParams.isEmpty then "" else "<" ++ ", ".intercalate d.typeParams ++ ">"
  let head := d.form.keyword ++ " " ++ d.name ++ generics
  match d.form with
  | .recordType => head ++ "(" ++ Parameter.renderList d.params ++ ")"
  | .enumType =>
    let values := ", ".intercalate ((a.table.enumValues d.name).map Declaration.name)
    if values = "" then head else head ++ " \x7b " ++ values ++ " \x7d"
  | _ =>
    let parent := match d.parent with
      | some p => " < " ++ p
      | none => ""
    let implements :=
      if d.implements.isEmpty then "" else " implements " ++ ", ".intercalate d.implements
    head ++ parent ++ implements

/-- A function with its parameters and return type. -/
def functionSignature (d : Declaration) : Infer String :=
  let call := d.name ++ "(" ++ Parameter.renderList d.params ++ ")"
  if d.form == .constructor then pure call
  else do
    let returns ← match d.returnText with
      | some text => if text == "" then Ty.render <$> a.functionType d else pure text
      | none => Ty.render <$> a.functionType d
    let word := if d.form == .signature then "" else "def "
    pure (word ++ call ++ " -> " ++ returns)

/-- A value of an enumeration, with the enumeration. -/
def enumValueSignature (d : Declaration) : String :=
  d.owner.getD "None" ++ "." ++ d.name

/-- A variable with its type. -/
def variableSignature (d : Declaration) : Infer String :=
  if d.form == .enumValue then pure (enumValueSignature d)
  else do
    let type ← a.declarationType d
    let word := match d.form.mutability? with
      | some m => m.keyword ++ " "
      | none => ""
    pure (word ++ d.name ++ ": " ++ type.render)

/-- How a declaration is shown. -/
def signature (d : Declaration) : Infer String :=
  match d.kind with
  | .classLike => pure (a.classSignature d)
  | .function => a.functionSignature d
  | .variable => a.variableSignature d

end Polyloft.Analysis
