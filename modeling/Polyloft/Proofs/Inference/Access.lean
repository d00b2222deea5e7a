import Mathlib.Data.List.TakeWhile
import Polyloft.Proofs.BlankLine.Expression
import Polyloft.Proofs.Comment.Scan
import Polyloft.Proofs.Declaration.Name

/-!
# Polyloft.Proofs.Inference.Access

Members of class-likes in expressions. `Name.member()`, where `Name` is a class-like, is typed by
the class-like's own member of that name and by nothing else: the two computations are the same. So
is a method call on a value of that type, if the catalog has no such method.

## Proof shape

A name is one token, wherever it stands before something that cannot go on with it (`lexFrom_name`),
so the written access is five tokens (`codeTokens_access`). Inference then goes through its cases by
evaluation, up to the look-up of the member; that one ends at the class-like itself, the first of
its lineage (`memberSource?_of_member?`).
-/

namespace Polyloft

open Polyloft.Text

/-! ### Lexing a name -/

/-- What starts a name starts nothing else. -/
theorem Text.only_starts_name {c : Char} (h : isNameStart c = true) :
    isSkipped c = false ∧ isDecimal c = false ∧ c ≠ '/' ∧ c ≠ '@' ∧ c ≠ '"' ∧ c ≠ '\'' ∧
      c ≠ '.' := by
  have hall : ∀ n : Fin 128, isNameStart (Char.ofNat n) = true →
      isSkipped (Char.ofNat n) = false ∧ isDecimal (Char.ofNat n) = false ∧ Char.ofNat n ≠ '/' ∧
        Char.ofNat n ≠ '@' ∧ Char.ofNat n ≠ '"' ∧ Char.ofNat n ≠ '\'' ∧ Char.ofNat n ≠ '.' := by
    decide +kernel
  simpa using hall ⟨c.toNat, toNat_lt_of_isNameStart h⟩ (by simpa using h)

/-- The category of a token that is a name. -/
def wordKind (name : String) : TokenKind :=
  if keywords.contains name then .keyword else .identifier

theorem lexFrom_name {name : String} (hname : isName name.toList = true) {rest : List Char}
    (hrest : rest.head?.any isWord = false) (line column : Nat) :
    (lexFrom line column (name.toList ++ rest)).1 =
      ⟨wordKind name, name, line, column, true⟩ ::
        (lexFrom line (column + name.length) rest).1 := by
  obtain ⟨cs, rfl⟩ : ∃ cs, name = String.ofList cs := ⟨name.toList, String.ofList_toList.symm⟩
  rw [String.toList_ofList] at hname ⊢
  cases cs with
  | nil => simp [isName] at hname
  | cons c cs =>
      rw [isName, Bool.and_eq_true, List.all_eq_true] at hname
      obtain ⟨hskip, hdecimal, hslash, hat, hquote, hsingle, -⟩ := only_starts_name hname.1
      have htake : (cs ++ rest).takeWhile isWord = cs := by
        rw [List.takeWhile_append_of_pos hname.2]
        cases rest with
        | nil => simp
        | cons d ds => simpa using hrest
      have hlexeme : Lexeme.at c (cs ++ rest) =
          ⟨wordKind (String.ofList (c :: cs)), cs.length, true, false⟩ := by
        rw [Lexeme.at_eq, if_neg (by simp [Region.startsComment, hslash]), if_neg hat,
          if_neg (by simp [hquote, hsingle]), if_neg (by simp [hdecimal]), if_pos hname.1,
          Lexeme.name, htake]
        rfl
      rw [List.cons_append, lexFrom, if_neg (by simp [hskip]), hlexeme]
      dsimp only
      rw [List.take_left, List.drop_left, String.length_ofList, List.length_cons, Nat.add_assoc,
        Nat.add_comm 1]

/-! ### Lexing an access -/

/-- The written form `owner.member()`. -/
def accessText (owner member : String) : List Char :=
  owner.toList ++ '.' :: (member.toList ++ ['(', ')'])

theorem lexFrom_sign {c : Char} {cs : List Char} {kind : TokenKind} (hskip : isSkipped c = false)
    (hlexeme : Lexeme.at c cs = ⟨kind, 0, true, false⟩) (line column : Nat) :
    (lexFrom line column (c :: cs)).1 =
      ⟨kind, String.ofList [c], line, column, true⟩ :: (lexFrom line (column + 1) cs).1 := by
  rw [lexFrom, if_neg (by simp [hskip]), hlexeme]
  rfl

theorem lexFrom_call (line column : Nat) :
    (lexFrom line column ['(', ')']).1 =
      [⟨.punct, "(", line, column, true⟩, ⟨.punct, ")", line, column + 1, true⟩] := by
  have hopening : Lexeme.at '(' [')'] = ⟨.punct, 0, true, false⟩ := by decide +kernel
  have hclosing : Lexeme.at ')' [] = ⟨.punct, 0, true, false⟩ := by decide +kernel
  rw [lexFrom_sign (by decide) hopening, lexFrom_sign (by decide) hclosing, lexFrom]

/-- A dot in front of a name is not part of a longer operator. -/
theorem at_dot {cs : List Char} (hcs : isName cs = true) (rest : List Char) :
    Lexeme.at '.' (cs ++ rest) = ⟨.operator, 0, true, false⟩ := by
  cases cs with
  | nil => simp [isName] at hcs
  | cons c cs =>
      rw [isName, Bool.and_eq_true] at hcs
      have hdot := (only_starts_name hcs.1).2.2.2.2.2.2
      have hoperator : operatorAt? ('.' :: (c :: cs ++ rest)) = some "." := by
        simp [operatorAt?, operators, List.isPrefixOf, hdot.symm]
      rw [Lexeme.at_eq, if_neg (by simp [Region.startsComment]), if_neg (by decide),
        if_neg (by decide), if_neg (by decide +kernel), if_neg (by decide), Lexeme.sign, hoperator]
      rfl

/-- An access is five tokens. -/
theorem codeTokens_access {owner member : String} (howner : isName owner.toList = true)
    (hkeyword : owner ∉ keywords) (hmember : isName member.toList = true) (line : Nat) :
    codeTokens (lexLine (accessText owner member) line false).1 =
      [⟨.identifier, owner, line, 0, true⟩, ⟨.operator, ".", line, owner.length, true⟩,
        ⟨wordKind member, member, line, owner.length + 1, true⟩,
        ⟨.punct, "(", line, owner.length + 1 + member.length, true⟩,
        ⟨.punct, ")", line, owner.length + 1 + member.length + 1, true⟩] := by
  have hkind : wordKind owner = .identifier := by
    rw [wordKind, if_neg (by simpa using hkeyword)]
  have hword : wordKind member ≠ .comment := by
    unfold wordKind
    split <;> simp
  have hdot : isWord '.' = false := by decide
  have hopening : isWord '(' = false := by decide
  rw [accessText, lexLine, if_neg (by simp), lexFrom_name howner (by simpa using hdot), hkind,
    lexFrom_sign (by decide) (at_dot hmember _), lexFrom_name hmember (by simpa using hopening),
    lexFrom_call]
  simp [codeTokens, hword]

/-! ### Members -/

/-- A class-like is the first of its lineage. -/
theorem DeclarationTable.head?_classLikes {table : DeclarationTable} {name : String}
    {owner : Declaration} (h : table.classLike? name = some owner) :
    (table.classLikes name).head? = some owner := by
  obtain ⟨more, hmore⟩ := table.exists_lineageFrom_eq_cons (List.not_mem_nil (a := name))
  rw [classLikes, lineage, hmore, List.filterMap_cons_some h, List.head?_cons]

/-- A member that is no value of an enumeration is found in the class-like itself. -/
theorem DeclarationTable.memberSource?_of_member? {table : DeclarationTable} {name member : String}
    {owner d : Declaration} (howner : table.classLike? name = some owner)
    (hd : table.member? name member = some d) (hvalue : d.form ≠ .enumValue) :
    table.memberSource? name member = some (.declared d) := by
  have hown : table.ownMember? owner member = some (.declared d) := by
    rw [ownMember?, name_of_classLike? howner, hd]
    simp [Option.filter, hvalue]
  obtain ⟨more, hmore⟩ := List.head?_eq_some_iff.1 (head?_classLikes howner)
  rw [memberSource?_eq_findSome?, hmore, List.findSome?_cons, hown]

/-! ### Inference -/

namespace Expression

variable {m : Type → Type} [Monad m] {a : Analysis} {typeOf : Declaration → m Ty}
  {owner member : String} {klass d : Declaration}

section

variable (hklass : a.table.classLike? owner = some klass)
  (hd : a.table.member? owner member = some d) (hvalue : d.form ≠ .enumValue)
include hklass hd hvalue

theorem memberType?_of_member? : memberType? a typeOf owner member = some <$> typeOf d := by
  rw [memberType?, DeclarationTable.memberSource?_of_member? hklass hd hvalue]

variable [LawfulMonad m]

/-- A method call on a value of the class-like, unless the catalog has the method. -/
theorem methodType_of_member? (args : List Ty)
    (hcatalog : a.catalog.methodType? (.named owner args) member = none) :
    methodType a typeOf member (.named owner args) = typeOf d := by
  rw [methodType, namedMethodType, hcatalog]
  dsimp only
  rw [memberType?_of_member? hklass hd hvalue, bind_map_left]
  exact bind_pure _

/-- An access by the name of the class-like, unless an enumeration offers something else. -/
theorem classAccess_of_member? (hstatic : klass.form = .enumType →
      (∀ v ∈ a.table.enumValues owner, v.name ≠ member) ∧ enumStatic? owner member = none) :
    classAccess a typeOf klass member = typeOf d := by
  have hname := DeclarationTable.name_of_classLike? hklass
  have hmember : (·.getD .any) <$> memberType? a typeOf klass.name member = typeOf d := by
    rw [hname, memberType?_of_member? hklass hd hvalue, Functor.map_map]
    exact id_map _
  unfold classAccess
  by_cases henum : klass.form = .enumType
  · obtain ⟨hvalues, hoffered⟩ := hstatic henum
    have hany : (a.table.enumValues owner).any (·.name == member) = false := by
      simpa [List.any_eq_false] using hvalues
    simpa [henum, hname, hany, hoffered] using hmember
  · simpa [henum] using hmember

end

variable [LawfulMonad m] [MonadLiftT (Except Fault) m]

theorem inferPrimary_identifier {first : Token} (hfirst : first.kind = .identifier)
    (rest : List Token) (line : Int) :
    inferPrimary a typeOf (first :: rest) line = nameForm a typeOf first rest line := by
  rw [inferPrimary_cons]
  simp [literalType?, Token.isSymbol, Token.isKeyword, hfirst]

/-- The first form that is tried decides. -/
theorem inferTokens_of_inferChain {first : Token} (hfirst : first.kind = .identifier)
    {rest : List Token} (harrow : rest.any (·.isSymbol "=>") = false) {line : Int} {type : m Ty}
    (h : inferChain a typeOf (first :: rest) line = some <$> type) :
    inferTokens a typeOf (first :: rest) line = type := by
  have hsymbol (s : String) : first.isSymbol s = false := by simp [Token.isSymbol, hfirst]
  have hstrip : stripParens (first :: rest) = first :: rest := by
    rw [stripParens, hsymbol]
    rfl
  rw [inferTokens_eq, hstrip, if_neg (by simp [hsymbol, harrow]), h, bind_map_left]
  exact bind_pure type

omit [MonadLiftT (Except Fault) m] in
/-- A class-like, a dot, a word and an empty argument list. -/
theorem nameForm_access {first word : Token} (row i j k : Nat)
    (hklass : a.table.classLike? first.text = some klass)
    (hpackage : a.catalog.package? first.text = none) (line : Int) :
    nameForm a typeOf first [⟨.operator, ".", row, i, true⟩, word, ⟨.punct, "(", row, j, true⟩,
        ⟨.punct, ")", row, k, true⟩] line =
      (fun t => some (t, [])) <$> classAccess a typeOf klass word.text := by
  have hgeneric : genericCall? [first, ⟨.operator, ".", row, i, true⟩, word,
      ⟨.punct, "(", row, j, true⟩, ⟨.punct, ")", row, k, true⟩] = none := rfl
  have hafter : afterArguments? [⟨.punct, "(", row, j, true⟩, ⟨.punct, ")", row, k, true⟩] =
      some [] := rfl
  have hstatic : staticAccess a typeOf first.text word.text line =
      some <$> classAccess a typeOf klass word.text := by
    rw [staticAccess, hpackage, hklass]
  have hplain : plainName a typeOf first [⟨.operator, ".", row, i, true⟩, word,
      ⟨.punct, "(", row, j, true⟩, ⟨.punct, ")", row, k, true⟩] line =
        (fun t => some (t, [])) <$> classAccess a typeOf klass word.text := by
    unfold plainName
    dsimp only
    rw [if_pos (by rfl), hafter]
    dsimp only
    rw [hstatic, bind_map_left]
    exact bind_pure_comp _ _
  unfold nameForm
  rw [hgeneric, ite_self]
  exact hplain

/-- An access by the name of a class-like goes to the class-like, unless the catalog has a package
of that name. -/
theorem inferText_access (howner : isName owner.toList = true) (hkeyword : owner ∉ keywords)
    (hmember : isName member.toList = true) (hklass : a.table.classLike? owner = some klass)
    (hpackage : a.catalog.package? owner = none) (line : Int) :
    inferText a typeOf (accessText owner member) line = classAccess a typeOf klass member := by
  have hword : (wordKind member == .operator || wordKind member == .punct) = false := by
    unfold wordKind
    split <;> rfl
  rw [inferText, codeTokens_access howner hkeyword hmember]
  refine inferTokens_of_inferChain rfl (by simp [Token.isSymbol, hword]) ?_
  rw [inferChain, inferPrimary_identifier rfl, nameForm_access _ _ _ _ hklass hpackage,
    bind_map_left]
  dsimp only
  simp only [chain]
  exact bind_pure_comp _ _

end Expression

end Polyloft
