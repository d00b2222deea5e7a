import Polyloft.Proofs.Ty.Tokens

/-!
# Polyloft.Proofs.Inference.Construction

Constructor calls have the type that is written in them. A type with a name that starts with an
upper-case letter, written as a call without arguments, is inferred to be that type, with all its
arguments, nested and joined by bars as they may be, and whatever the document declares
(`Analysis.constructions_have_written_type`).

## Proof shape

The lexer finds the tokens of the type (`Ty.spellings_chars_append`). Inference has to find the
bracket that closes the type's own arguments (`matchingAngle?_of_passesAngles`), puts the tokens up
to it together again and reads them as a type (`Ty.ofString_compact`).
-/

namespace Polyloft

open Polyloft.Text

/-! ### Type arguments -/

section

variable {first o c p q : Token} {us rest : List Token}

theorem matchingAngle?_of_passesAngles (ho : o.spelling = .operator "<")
    (hc : c.spelling = .operator ">") (hus : Ty.PassesAngles us) :
    matchingAngle? (first :: o :: (us ++ c :: rest)) 1 = some (us.length + 2) := by
  obtain ⟨hopening, hotext⟩ := Spelling.mk.inj ho
  obtain ⟨hclosing, hctext⟩ := Spelling.mk.inj hc
  have hclose : angleIndex? 0 (c :: rest) = some 0 := by
    rw [angleIndex?.eq_def]
    simp [Token.isSymbol, hclosing, hctext]
  rw [matchingAngle?, List.drop_succ_cons, List.drop_zero]
  dsimp only
  rw [if_pos (by simp [Token.isSymbol, hopening, hotext]), hus, hclose]
  simp [Nat.add_comm]

/-- An empty argument list. -/
theorem group?_of_call (hp : p.spelling = .punct "(") (hq : q.spelling = .punct ")")
    (rest : List Token) : group? (p :: q :: rest) = some ([], rest) := by
  have hpair : p.Pairs q := Token.pairs_of_spelling hp hq rfl
  exact group?_of_pairs hpair .nil rest

/-- Tokens joined as inference joins them. -/
theorem toList_join_compact (ts : List Token) :
    (String.join (ts.map fun t => if t.text == "," then ", " else t.text)).toList =
      Ty.compact (ts.map Token.spelling) := by
  rw [String.toList_join, Ty.compact, List.flatMap_map, List.flatMap_map]
  congr 1
  funext t
  exact apply_ite String.toList _ _ _

namespace Expression

theorem genericCall?_of_passesAngles (ho : o.spelling = .operator "<")
    (hc : c.spelling = .operator ">") (hus : Ty.PassesAngles us)
    (hp : p.spelling = .punct "(") (hq : q.spelling = .punct ")") :
    genericCall? (first :: o :: (us ++ c :: [p, q])) =
      some (Ty.ofString (String.ofList
        (Ty.compact ((first :: o :: (us ++ [c])).map Token.spelling))), []) := by
  have hsplit : first :: o :: (us ++ c :: [p, q]) = (first :: o :: (us ++ [c])) ++ [p, q] := by
    simp
  have hlength : us.length + 2 + 1 = (first :: o :: (us ++ [c])).length := by
    simp
  have hparen : p.isSymbol "(" = true := by
    simp [Token.isSymbol, (Spelling.mk.inj hp).1, (Spelling.mk.inj hp).2]
  rw [genericCall?, matchingAngle?_of_passesAngles ho hc hus, Option.bind_some]
  dsimp only
  rw [hsplit, hlength, List.drop_left, List.take_left, if_pos (by simpa using hparen),
    group?_of_call hp hq, Option.map_some, ← toList_join_compact, String.ofList_toList]

end Expression

end

/-! ### Inference -/

namespace Expression

variable {m : Type → Type} [Monad m] [LawfulMonad m] [MonadLiftT (Except Fault) m] {a : Analysis}
  {f : Declaration → m Ty} {line : Int}

/-- A form that a name decides as a whole. -/
theorem inferTokens_of_nameForm {first : Token} (hfirst : first.kind = .identifier)
    {rest : List Token} (harrow : ∀ t ∈ rest, t.isSymbol "=>" = false) {type : Ty}
    (h : nameForm a f first rest line = pure (some (type, []))) :
    inferTokens a f (first :: rest) line = pure type := by
  refine inferTokens_of_inferChain hfirst (by simpa using harrow) ?_
  rw [inferChain, inferPrimary_identifier hfirst, h, pure_bind, map_pure]
  dsimp only
  rw [chain]

omit [LawfulMonad m] [MonadLiftT (Except Fault) m] in
/-- A call of a name. -/
theorem nameForm_of_call {first p q : Token} (hupper : first.startsUpper = true)
    (hp : p.spelling = .punct "(") (hq : q.spelling = .punct ")") :
    nameForm a f first [p, q] line = pure (some (.simple first.text, [])) := by
  obtain ⟨hkind, htext⟩ := Spelling.mk.inj hp
  have hparen : p.isSymbol "(" = true := by simp [Token.isSymbol, hkind, htext]
  have hgeneric : genericCall? [first, p, q] = none := by
    rw [genericCall?, matchingAngle?, List.drop_succ_cons, List.drop_zero]
    simp [Token.isSymbol, htext]
  unfold nameForm
  rw [hgeneric, ite_self]
  dsimp only
  rw [List.head?_cons, Option.any_some, if_pos hparen, group?_of_call hp hq]
  dsimp only
  rw [if_pos hupper]

omit [LawfulMonad m] [MonadLiftT (Except Fault) m] in
/-- A call of a name with type arguments. -/
theorem nameForm_of_passesAngles {first o c p q : Token} {us : List Token}
    (hupper : first.startsUpper = true) (ho : o.spelling = .operator "<")
    (hc : c.spelling = .operator ">") (hus : Ty.PassesAngles us)
    (hp : p.spelling = .punct "(") (hq : q.spelling = .punct ")") :
    nameForm a f first (o :: (us ++ c :: [p, q])) line =
      pure (some (Ty.ofString (String.ofList
        (Ty.compact ((first :: o :: (us ++ [c])).map Token.spelling))), [])) := by
  unfold nameForm
  rw [if_pos hupper, genericCall?_of_passesAngles ho hc hus hp hq]

/-- Neither comments nor arrows are in a constructor call. -/
theorem of_mem_construction {t : Ty} {w : Spelling}
    (hw : w ∈ t.tokens ++ [.punct "(", .punct ")"]) :
    w.kind ≠ .comment ∧ (w.kind = .identifier ∨ w.text ≠ "=>") := by
  have hsigns : w.kind = .identifier ∨ w ∈ [.operator "<", .operator ">", .operator "|",
      .punct ",", .punct "(", .punct ")"] := by
    rcases List.mem_append.1 hw with hw | hw
    · exact (Ty.mem_tokens hw).imp_right fun hsign => List.mem_append_left _ hsign
    · exact .inr (List.mem_append_right [_, _, _, _] hw)
  have hall : ∀ w ∈ ([.operator "<", .operator ">", .operator "|", .punct ",",
      .punct "(", .punct ")"] : List Spelling), w.kind ≠ .comment ∧ w.text ≠ "=>" := by
    decide
  rcases hsigns with hkind | hsign
  · exact ⟨by simp [hkind], .inl hkind⟩
  · exact ⟨(hall w hsign).1, .inr (hall w hsign).2⟩

theorem inferTokens_of_construction {name : String} {args : List Ty}
    (h : (Ty.named name args).Writable) (hupper : name.toList.head?.any Char.isUpper = true)
    {ts : List Token}
    (hts : ts.map Token.spelling =
      (Ty.named name args).tokens ++ [.punct "(", .punct ")"]) :
    inferTokens a f ts line = pure (.named name args) := by
  have harrow : ∀ t ∈ ts, t.isSymbol "=>" = false := by
    intro t ht
    have hmem := List.mem_map_of_mem (f := Token.spelling) ht
    rw [hts] at hmem
    obtain ⟨-, hkind | htext⟩ := of_mem_construction hmem
    · simp [Token.isSymbol, show t.kind = .identifier from hkind]
    · simp [Token.isSymbol, show t.text ≠ "=>" from htext]
  have hstarts {first : Token} (hfirst : first.text = name) : first.startsUpper = true := by
    rw [Token.startsUpper, hfirst]
    cases hchars : name.toList with
    | nil => simp [hchars] at hupper
    | cons c cs => simpa [hchars] using hupper
  cases args with
  | nil =>
      rw [Ty.tokens, List.singleton_append] at hts
      obtain ⟨first, more, rfl, hfirst, hmore⟩ := List.map_eq_cons_iff.1 hts
      obtain ⟨p, more, rfl, hp, hmore⟩ := List.map_eq_cons_iff.1 hmore
      obtain ⟨q, rfl, hq⟩ := List.map_eq_singleton_iff.1 hmore
      obtain ⟨hkind, htext⟩ := Spelling.mk.inj hfirst
      rw [List.forall_mem_cons] at harrow
      refine inferTokens_of_nameForm hkind harrow.2 ?_
      rw [nameForm_of_call (hstarts htext) hp hq, htext]
  | cons t args =>
      have hwhole := hts
      rw [Ty.tokens] at hts
      simp only [List.cons_append, List.append_assoc] at hts
      obtain ⟨first, more, rfl, hfirst, hmore⟩ := List.map_eq_cons_iff.1 hts
      obtain ⟨o, more, rfl, ho, hmore⟩ := List.map_eq_cons_iff.1 hmore
      obtain ⟨us, more, rfl, hus, hmore⟩ := List.map_eq_append_iff.1 hmore
      obtain ⟨c, more, rfl, hc, hmore⟩ := List.map_eq_cons_iff.1 hmore
      obtain ⟨p, more, rfl, hp, hmore⟩ := List.map_eq_cons_iff.1 hmore
      obtain ⟨q, rfl, hq⟩ := List.map_eq_singleton_iff.1 hmore
      obtain ⟨hkind, htext⟩ := Spelling.mk.inj hfirst
      rw [List.forall_mem_cons] at harrow
      refine inferTokens_of_nameForm hkind harrow.2 ?_
      have htokens : (first :: o :: (us ++ [c])).map Token.spelling =
          (Ty.named name (t :: args)).tokens := by
        simp [Ty.tokens, hfirst, ho, hus, hc]
      rw [nameForm_of_passesAngles (hstarts htext) ho hc (Ty.passesAngles_args hus) hp hq, htokens,
        Ty.ofString_compact h]

end Expression

/-- A constructor call has the type that is written in it, in every document and on every line, and
nothing is remembered. The arguments may nest and have unions among them. -/
theorem Analysis.constructions_have_written_type (a : Analysis) {name : String} {args : List Ty}
    (hwf : (Ty.named name args).WellFormed) (hspelled : (Ty.named name args).Spelled)
    (hkeywords : ∀ n ∈ (Ty.named name args).names, n ∉ keywords)
    (hupper : name.toList.head?.any Char.isUpper = true) (line : Int) :
    a.infer ((Ty.named name args).render ++ "()").toList line = pure (.named name args) := by
  have h : (Ty.named name args).Writable := ⟨hwf, hspelled, hkeywords⟩
  refine Expression.inferText_of_spellings ?_ ?_ fun ts =>
    Expression.inferTokens_of_construction h hupper
  · have hopening := spellings_punctuation (c := '(') (by decide) [')']
    have hclosing := spellings_punctuation (c := ')') (by decide) []
    rw [String.toList_append]
    refine (Ty.spellings_chars_append h (by simp [Ty.Behind])).trans ?_
    rw [show "()".toList = ['(', ')'] from rfl, hopening, hclosing, spellings_nil]
  · exact fun w hw => (Expression.of_mem_construction hw).1

/-- A map to optional arrays, in a document that declares a variable of the name. -/
theorem Analysis.constructions_have_written_type_map :
    let element : Ty := .union [.simple "String", .simple "Int"]
    let args : List Ty := [.any, .union [.array element, .simple "Nil"]]
    let a := Analysis.ofText "var Map = 1".toList none {}
    ((Ty.named "Map" args).WellFormed ∧ (Ty.named "Map" args).Spelled ∧
      (∀ n ∈ (Ty.named "Map" args).names, n ∉ keywords) ∧
      "Map".toList.head?.any Char.isUpper = true) ∧
    (Ty.named "Map" args).render ++ "()" = "Map<Any, Array<String | Int> | Nil>()" ∧
    a.infer ((Ty.named "Map" args).render ++ "()").toList 0 = pure (.named "Map" args) := by
  intro element args a
  have hname (name : String) (h : Ty.isTypeName name.toList = true) (hany : name ≠ "Any") :
      (Ty.simple name).Spelled := .named h hany (by simp)
  have helement : element.WellFormed ∧ element.Spelled := by
    refine ⟨.union (by decide) (by decide) (by simp [Ty.isNamed]) ?_ ?_, .union ?_⟩
    · simpa using ⟨Ty.WellFormed.simple "String", Ty.WellFormed.simple "Int"⟩
    · simp [Ty.same]
    · simpa using ⟨hname "String" (by decide) (by decide), hname "Int" (by decide) (by decide)⟩
  have harray : (Ty.array element).Spelled :=
    .named (by decide) (by decide) (by simpa using helement.2)
  have hwf : (Ty.named "Map" args).WellFormed := by
    refine .named ?_
    simp only [args, List.forall_mem_cons, List.not_mem_nil, false_implies, implies_true, and_true]
    refine ⟨.any, .union (by decide) (by decide) (by simp [Ty.isNamed]) ?_ ?_⟩
    · simpa using ⟨helement.1.array, Ty.WellFormed.simple "Nil"⟩
    · simp [Ty.same]
  have hspelled : (Ty.named "Map" args).Spelled := by
    refine .named (by decide) (by decide) ?_
    simp only [args, List.forall_mem_cons, List.not_mem_nil, false_implies, implies_true, and_true]
    refine ⟨.any, .union ?_⟩
    simpa using ⟨harray, hname "Nil" (by decide) (by decide)⟩
  have hkeywords : ∀ n ∈ (Ty.named "Map" args).names, n ∉ keywords := by decide
  exact ⟨⟨hwf, hspelled, hkeywords, by decide⟩, by decide,
    Analysis.constructions_have_written_type a hwf hspelled hkeywords (by decide) 0⟩

end Polyloft
