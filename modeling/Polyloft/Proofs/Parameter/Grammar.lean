import Polyloft.Proofs.Inference.Access
import Polyloft.Proofs.Ty.Grammar

/-!
# Polyloft.Proofs.Parameter.Grammar

Texts of parameters. `Follows p cs` says that a text is, as a whole, a parameter of the grammar, and
which one. What is read by the grammar follows it (`follows_of_parseGrammar?`), and what follows it
is read (`parseGrammar?_of_follows`). From any other text at most a name is recovered, an identifier
(`recover?_eq_some`). Of the characters of identifiers no more needs to be known than that in ASCII
they are those of the names of types, and that none of them is blank.
-/

namespace Polyloft

open Polyloft.Text

/-! ### Characters of identifiers -/

namespace Text

/-- A character of an identifier, its first or another one. -/
def isIdentifierChar (c : Char) : Bool :=
  isIdentifierStart c || isIdentifierContinue c

theorem isIdentifierChar_of_mem {cs : List Char} (h : isIdentifier cs = true) {c : Char}
    (hc : c ∈ cs) : isIdentifierChar c = true := by
  cases cs with
  | nil => simp at hc
  | cons d ds =>
      rw [isIdentifier, Bool.and_eq_true, List.all_eq_true] at h
      rw [isIdentifierChar, Bool.or_eq_true]
      rcases List.mem_cons.1 hc with rfl | hc
      · exact .inl h.1
      · exact .inr (h.2 c hc)

/-- In ASCII these are the characters of the names of types. -/
theorem isNameRest_or_le_of_isIdentifierChar {c : Char} (h : isIdentifierChar c = true) :
    Parser.isNameRest c = true ∨ 0x80 ≤ c.toNat := by
  rcases Nat.lt_or_ge c.toNat 0x80 with hlt | hge
  · refine .inl ?_
    rw [isIdentifierChar, isIdentifierStart, isIdentifierContinue, if_pos hlt, if_pos hlt,
      Bool.or_eq_true] at h
    rcases h with h | h
    · exact Ty.isNameRest_of_isNameStart h
    · exact h
  · exact .inr hge

theorem ne_of_isIdentifierChar {c d : Char} (h : isIdentifierChar c = true)
    (hd : Parser.isNameRest d = false ∧ d.toNat < 0x80) : c ≠ d := by
  rintro rfl
  rcases isNameRest_or_le_of_isIdentifierChar h with h | h
  · rw [hd.1] at h
    simp at h
  · omega

/-- The blanks beyond ASCII. -/
def blankRanges : Ranges :=
  [(0x85, 0x85), (0xa0, 0xa0), (0x1680, 0x1680), (0x2000, 0x200a), (0x2028, 0x2029),
    (0x202f, 0x202f), (0x205f, 0x205f), (0x3000, 0x3000)]

theorem has_blankRanges {c : Char} (hc : 0x80 ≤ c.toNat) (h : isBlank c = true) :
    blankRanges.has c = true := by
  simp only [isBlank, Bool.or_eq_true, Bool.and_eq_true, decide_eq_true_eq, beq_iff_eq] at h
  simp only [blankRanges, Ranges.has, List.any_cons, List.any_nil, Bool.or_eq_true,
    Bool.and_eq_true, decide_eq_true_eq]
  omega

theorem isBlank_of_isIdentifierChar {c : Char} (h : isIdentifierChar c = true) :
    isBlank c = false := by
  rcases isNameRest_or_le_of_isIdentifierChar h with hrest | hle
  · exact Ty.isBlank_of_isNameRest hrest
  · by_contra hblank
    have hclear : (identifierStartRanges ++ identifierContinueRanges).all (fun r =>
        blankRanges.all fun b => r.2 < b.1 || b.2 < r.1) = true := by
      decide +kernel
    obtain ⟨r, hr, hrc⟩ : ∃ r ∈ identifierStartRanges ++ identifierContinueRanges,
        r.1 ≤ c.toNat ∧ c.toNat ≤ r.2 := by
      rw [isIdentifierChar, isIdentifierStart, isIdentifierContinue, if_neg (by omega),
        if_neg (by omega), Bool.or_eq_true] at h
      rw [← Ranges.has_iff, Ranges.has, List.any_append, Bool.or_eq_true]
      exact h
    obtain ⟨b, hb, hbc⟩ := Ranges.has_iff.1 (has_blankRanges hle (by simpa using hblank))
    have hapart := List.all_eq_true.1 (List.all_eq_true.1 hclear r hr) b hb
    rw [Bool.or_eq_true, decide_eq_true_eq, decide_eq_true_eq] at hapart
    omega

theorem exists_cons_of_isIdentifier {cs : List Char} (h : isIdentifier cs = true) :
    ∃ d ds, cs = d :: ds ∧ d ≠ '.' ∧ isBlank d = false := by
  cases cs with
  | nil => simp [isIdentifier] at h
  | cons d ds =>
      have hd := isIdentifierChar_of_mem h (List.mem_cons_self ..)
      exact ⟨d, ds, rfl, ne_of_isIdentifierChar hd (by decide), isBlank_of_isIdentifierChar hd⟩

theorem toNat_lt_of_isNameRest {c : Char} (h : Parser.isNameRest c = true) : c.toNat < 0x80 := by
  rcases Bool.or_eq_true_iff.1 h with h | h
  · rcases Bool.or_eq_true_iff.1 h with h | h
    · exact toNat_lt_of_isNameStart (Bool.or_eq_true_iff.2 (.inl h))
    · delta Char.isDigit at h
      simp only [Bool.and_eq_true, decide_eq_true_eq] at h
      exact Nat.lt_of_le_of_lt (UInt32.le_iff_toNat_le.1 h.2) (by decide)
  · rw [beq_iff_eq.1 h]
    decide

/-- The names of types are identifiers. -/
theorem isIdentifier_of_isTypeName {cs : List Char} (h : Ty.isTypeName cs = true) :
    isIdentifier cs = true := by
  cases cs with
  | nil => simp [Ty.isTypeName] at h
  | cons d ds =>
      rw [Ty.isTypeName, Bool.and_eq_true, List.all_eq_true] at h
      rw [isIdentifier, Bool.and_eq_true, List.all_eq_true, isIdentifierStart,
        if_pos (toNat_lt_of_isNameStart h.1)]
      refine ⟨h.1, fun c hc => ?_⟩
      rw [isIdentifierContinue, if_pos (toNat_lt_of_isNameRest (h.2 c hc))]
      exact h.2 c hc

end Text

namespace Parameter

open Polyloft.Parser (Gap gap exists_gap isNameRest char_eq_some char_eq_none eq_append_of_name)
open Polyloft.Ty (IsType isTypeName isTypeName_of_name exists_cons_of_isTypeName FollowsType)

/-! ### Texts of parameters -/

/-- The text of an annotation, with the type that is written there. -/
inductive Typing : Option String → Ty → List Char → Prop where
  | none : Typing none .any []
  | some {ws text : List Char} {t : Ty} (hws : Gap ws) (ht : IsType text t) :
      Typing (some (String.ofList text)) t (':' :: (ws ++ text))

/-- The text of a parameter that follows the grammar: its name with its marks, its annotation and
its default. -/
inductive Follows (p : Parameter) : List Char → Prop where
  | mk {ws typing ws' default : List Char} (hname : isTypeName p.name.toList = true)
      (hws : Gap ws) (htyping : Typing p.typeText p.type typing) (hws' : Gap ws')
      (hdefault : default = [] ∨ ∃ value, default = '=' :: value) :
      Follows p (p.renderName.toList ++ (ws ++ (typing ++ (ws' ++ default))))

theorem Follows.isTypeName {p : Parameter} {cs : List Char} (h : Follows p cs) :
    isTypeName p.name.toList = true := by
  cases h with
  | mk hname => exact hname

theorem typing_cases {typeText : Option String} {type : Ty} {typing : List Char}
    (h : Typing typeText type typing) :
    typeText = none ∧ type = .any ∧ typing = [] ∨
      ∃ ws text, Gap ws ∧ IsType text type ∧ typeText = some (String.ofList text) ∧
        typing = ':' :: (ws ++ text) := by
  cases h with
  | none => exact .inl ⟨rfl, rfl, rfl⟩
  | some hws ht => exact .inr ⟨_, _, hws, ht, rfl, rfl⟩

theorem toList_renderName (p : Parameter) :
    p.renderName.toList = (if p.variadic then ['.', '.', '.'] else []) ++
      (p.name.toList ++ if p.optional then ['?'] else []) := by
  rw [renderName]
  cases p.variadic <;> cases p.optional <;> simp

theorem optionally_cases {α : Type} (p : Parser α) (cs : List Char) :
    (∃ a rest, p cs = some (a, rest) ∧ optionally p cs = (some a, rest)) ∨
      optionally p cs = (none, cs) := by
  unfold optionally
  split
  · exact .inl ⟨_, _, ‹_›, rfl⟩
  · exact .inr rfl

theorem consumed_append (text rest : List Char) : consumed (text ++ rest) rest = text := by
  simp [consumed]

theorem typing_of_optionally (cs : List Char) :
    let read := optionally annotationParser cs
    ∃ typing, cs = typing ++ read.2 ∧
      Typing (read.1.map Prod.fst) ((read.1.map Prod.snd).getD .any) typing := by
  intro read
  rcases optionally_cases annotationParser cs with ⟨a, rest, hread, heq⟩ | heq
  · obtain ⟨r, hcolon, hread⟩ := Option.bind_eq_some_iff.1 hread
    obtain ⟨t, ht, hread⟩ := Option.map_eq_some_iff.1 hread
    obtain ⟨ws, hws, hgap⟩ := exists_gap r.2
    obtain ⟨text, htext, htype⟩ := Ty.parser_readsOnly _ _ _ ht
    simp only [read, heq, ← Prod.mk.inj hread]
    refine ⟨':' :: (ws ++ text), ?_, ?_⟩
    · rw [char_eq_some hcolon, hgap, htext]
      simp
    · rw [htext, consumed_append]
      exact .some hws htype
  · simp only [read, heq]
    exact ⟨[], rfl, .none⟩

/-- A parameter that follows the grammar, from its name on. -/
def parseNamed? (variadic : Bool) (cs : List Char) : Option Parameter :=
  (Parser.name cs).bind fun name =>
    let mark := optionally (Parser.char '?') name.2
    let type := optionally annotationParser (Parser.gap mark.2)
    let default := optionally defaultParser (Parser.gap type.2)
    if default.2 = [] then
      some
        { name := name.1
          typeText := type.1.map Prod.fst
          type := (type.1.map Prod.snd).getD .any
          variadic
          optional := mark.1.isSome
          defaultText := default.1 }
    else none

theorem parseGrammar?_eq (cs : List Char) :
    (∃ rest, cs = '.' :: '.' :: '.' :: rest ∧ parseGrammar? cs = parseNamed? true rest) ∨
      (¬['.', '.', '.'] <+: cs) ∧ parseGrammar? cs = parseNamed? false cs := by
  unfold parseGrammar?
  split
  · exact .inl ⟨_, rfl, rfl⟩
  · rename_i hdots
    refine .inr ⟨?_, rfl⟩
    rintro ⟨rest, rfl⟩
    exact hdots rest rfl

theorem follows_of_parseNamed? {variadic : Bool} {cs : List Char} {p : Parameter}
    (h : parseNamed? variadic cs = some p) :
    p.variadic = variadic ∧ Follows p ((if variadic then ['.', '.', '.'] else []) ++ cs) := by
  obtain ⟨⟨name, behind⟩, hname, h⟩ := Option.bind_eq_some_iff.1 h
  dsimp only at h
  have hspelled := isTypeName_of_name hname
  have hmark : behind = (if (optionally (Parser.char '?') behind).1.isSome then ['?'] else []) ++
      (optionally (Parser.char '?') behind).2 := by
    rcases optionally_cases (Parser.char '?') behind with ⟨u, rest, hread, heq⟩ | heq
    · rw [heq, char_eq_some hread]
      rfl
    · rw [heq]
      rfl
  generalize optionally (Parser.char '?') behind = mark at h hmark
  obtain ⟨ws, hws, hgap⟩ := exists_gap mark.2
  obtain ⟨typing, htyped, htyping⟩ := typing_of_optionally (Parser.gap mark.2)
  generalize optionally annotationParser (Parser.gap mark.2) = type at h htyped htyping
  obtain ⟨ws', hws', hgap'⟩ := exists_gap type.2
  split at h
  · rename_i hend
    obtain rfl := Option.some.inj h
    have hdefault : Parser.gap type.2 = [] ∨ ∃ value, Parser.gap type.2 = '=' :: value := by
      rcases optionally_cases defaultParser (Parser.gap type.2) with ⟨a, rest, hread, -⟩ | heq
      · obtain ⟨r, hequals, -⟩ := Option.map_eq_some_iff.1 hread
        exact .inr ⟨r.2, char_eq_some hequals⟩
      · exact .inl (by rwa [heq] at hend)
    refine ⟨rfl, ?_⟩
    have hcs : cs = name.toList ++ ((if mark.1.isSome then ['?'] else []) ++
        (ws ++ (typing ++ (ws' ++ Parser.gap type.2)))) := by
      rw [← hgap', ← htyped, ← hgap, ← hmark]
      exact eq_append_of_name hname
    have hfollows := Follows.mk (p := ⟨name, type.1.map Prod.fst, (type.1.map Prod.snd).getD .any,
      variadic, mark.1.isSome, (optionally defaultParser (Parser.gap type.2)).1, none⟩) hspelled hws
      htyping hws' hdefault
    rw [toList_renderName] at hfollows
    rw [hcs]
    simpa only [List.append_assoc] using hfollows
  · simp at h

theorem follows_of_parseGrammar? {cs : List Char} {p : Parameter}
    (h : parseGrammar? cs = some p) : Follows p cs := by
  rcases parseGrammar?_eq cs with ⟨rest, rfl, heq⟩ | ⟨-, heq⟩
  · exact (follows_of_parseNamed? (heq.symm.trans h)).2
  · exact (follows_of_parseNamed? (heq.symm.trans h)).2

theorem recover?_eq_some {cs : List Char} {p : Parameter} (h : recover? cs = some p) :
    isIdentifier (recoverName cs) = true ∧
      p = { name := String.ofList (recoverName cs)
            variadic := ['.', '.', '.'].isPrefixOf cs } := by
  unfold recover? at h
  dsimp only at h
  split at h
  · exact ⟨‹_›, (Option.some.inj h).symm⟩
  · simp at h


/-- What is read as a parameter is a parameter of the grammar, or just a name. -/
theorem parse?_cases {piece : List Char} {p : Parameter} (h : parse? piece = some p) :
    parseGrammar? (strip piece) = some p ∧ Follows p (strip piece) ∨
      isIdentifier (recoverName (strip piece)) = true ∧
        p = { name := String.ofList (recoverName (strip piece))
              variadic := ['.', '.', '.'].isPrefixOf (strip piece) } := by
  rcases Option.or_eq_some_iff.1 h with h | ⟨-, h⟩
  · exact .inl ⟨h, follows_of_parseGrammar? h⟩
  · exact .inr (recover?_eq_some h)

/-- The name of a parameter is an identifier. -/
theorem isIdentifier_of_parse? {piece : List Char} {p : Parameter} (h : parse? piece = some p) :
    isIdentifier p.name.toList = true := by
  rcases parse?_cases h with ⟨-, h⟩ | ⟨hname, rfl⟩
  · exact isIdentifier_of_isTypeName h.isTypeName
  · rwa [String.toList_ofList]

/-! ### Texts that are read -/

/-- What signatures show of a parameter: all but its default and its column. -/
def shown (p : Parameter) : Parameter :=
  { p with defaultText := none, column := none }

section

variable {ws default : List Char} (hws : Gap ws)
  (hdefault : default = [] ∨ ∃ value, default = '=' :: value)
include hws hdefault

theorem gap_append_default : gap (ws ++ default) = default := by
  rw [hws.gap_append]
  rcases hdefault with rfl | ⟨value, rfl⟩
  · rfl
  · exact List.dropWhile_cons_of_neg (by decide)

theorem followsType_append_default : FollowsType (ws ++ default) := by
  rcases hdefault with rfl | ⟨value, rfl⟩
  · have hgap := gap_append_default hws (.inl rfl)
    have hfirst : (ws ++ []).head?.any isNameRest = false ∧ (ws ++ []).head? ≠ some '?' := by
      rcases hws.head?_append [] with h | h | h
      all_goals
        rw [h]
        decide
    refine ⟨⟨⟨hfirst.1, ?_, ?_⟩, hfirst.2⟩, ?_⟩
    all_goals
      rw [hgap]
      simp
  · exact .of_sign hws (by simp) value

/-- Nothing goes on with the name. -/
theorem head?_typing {typeText : Option String} {type : Ty} {typing : List Char}
    (h : Typing typeText type typing) :
    (typing ++ (ws ++ default)).head?.any isNameRest = false ∧
      (typing ++ (ws ++ default)).head? ≠ some '?' := by
  cases h with
  | none =>
      have hfollows := followsType_append_default hws hdefault
      exact ⟨hfollows.name, hfollows.mark⟩
  | some => exact ⟨rfl, by simp⟩

theorem optionally_typing {typeText : Option String} {type : Ty} {typing : List Char}
    (h : Typing typeText type typing) :
    let read := optionally annotationParser (gap (typing ++ (ws ++ default)))
    read.1.map Prod.fst = typeText ∧ (read.1.map Prod.snd).getD .any = type ∧
      gap read.2 = default := by
  have hgap := gap_append_default hws hdefault
  intro read
  cases h with
  | none =>
      have hread : read = (none, default) := by
        have hcolon : Parser.char ':' default = none := by
          rcases hdefault with rfl | ⟨value, rfl⟩
          · rfl
          · rfl
        dsimp only [read]
        rw [List.nil_append, hgap, optionally, annotationParser, hcolon]
        rfl
      rw [hread]
      exact ⟨rfl, rfl, by simpa using gap_append_default .nil hdefault⟩
  | @some vs text _ hvs ht =>
      have hread : read = (some (String.ofList text, type), ws ++ default) := by
        have hcolon (cs : List Char) : gap (':' :: cs) = ':' :: cs :=
          List.dropWhile_cons_of_neg (by decide)
        have htext := Ty.gap_append_of_exists_cons ht.exists_cons (ws ++ default)
        dsimp only [read]
        rw [List.cons_append, hcolon, optionally, annotationParser, Parser.char_cons_self,
          Option.bind_some]
        dsimp only
        rw [List.append_assoc, hvs.gap_append, htext,
          Ty.parser_append ht (followsType_append_default hws hdefault), Option.map_some,
          consumed_append]
      rw [hread]
      exact ⟨rfl, rfl, hgap⟩

end

/-- What is read of a parameter that follows the grammar, from its name on. -/
theorem parseNamed?_append {p : Parameter} {ws typing ws' default : List Char}
    (hname : isTypeName p.name.toList = true) (hws : Gap ws)
    (htyping : Typing p.typeText p.type typing) (hws' : Gap ws')
    (hdefault : default = [] ∨ ∃ value, default = '=' :: value) :
    (parseNamed? p.variadic (p.name.toList ++ ((if p.optional then ['?'] else []) ++
      (ws ++ (typing ++ (ws' ++ default)))))).map shown = some p.shown := by
  have hrest := head?_typing hws' hdefault htyping
  obtain ⟨htext, htype, hgap⟩ := optionally_typing hws' hdefault htyping
  generalize typing ++ (ws' ++ default) = rest at *
  have hfirst : (ws ++ rest).head?.any isNameRest = false ∧ (ws ++ rest).head? ≠ some '?' := by
    rcases hws.head?_append rest with h | h | h
    · rwa [h]
    · rw [h]
      decide
    · rw [h]
      decide
  have hmark : optionally (Parser.char '?') ((if p.optional then ['?'] else []) ++ (ws ++ rest)) =
      (if p.optional then some () else none, ws ++ rest) := by
    rw [optionally]
    cases p.optional with
    | true => rfl
    | false =>
        rw [if_neg Bool.false_ne_true, List.nil_append, char_eq_none hfirst.2]
        rfl
  have hbehind :
      ((if p.optional then ['?'] else []) ++ (ws ++ rest)).head?.any isNameRest = false := by
    cases p.optional with
    | true => rfl
    | false => exact hfirst.1
  have hend : (optionally defaultParser default).2 = [] := by
    rcases hdefault with rfl | ⟨value, rfl⟩
    · rfl
    · rfl
  rw [parseNamed?, Parser.name_append hname hbehind, Option.bind_some]
  dsimp only
  rw [hmark]
  dsimp only
  rw [hws.gap_append, hgap, if_pos hend, htext, htype]
  cases hoptional : p.optional with
  | true => simp [shown, hoptional]
  | false => simp [shown, hoptional]

/-- What follows the grammar is read. -/
theorem parseGrammar?_of_follows {cs : List Char} {p : Parameter} (h : Follows p cs) :
    (parseGrammar? cs).map shown = some p.shown := by
  cases h with
  | @mk ws typing ws' default hname hws htyping hws' hdefault =>
      have hread := parseNamed?_append hname hws htyping hws' hdefault
      rw [toList_renderName, List.append_assoc, List.append_assoc]
      generalize (if p.optional then ['?'] else []) ++ (ws ++ (typing ++ (ws' ++ default))) = rest
        at *
      cases hvariadic : p.variadic with
      | true =>
          rw [hvariadic] at hread
          exact hread
      | false =>
          obtain ⟨d, ds, hcs, hd⟩ := exists_cons_of_isTypeName hname
          have hdot : d ≠ '.' := (only_starts_name hd).2.2.2.2.2.2
          rw [hvariadic] at hread
          rcases parseGrammar?_eq (p.name.toList ++ rest) with ⟨more, hdots, -⟩ | ⟨-, heq⟩
          · rw [hcs] at hdots
            exact absurd (List.cons.inj hdots).1 hdot
          · exact (congrArg _ heq).trans hread

end Parameter

end Polyloft
