import Mathlib.Data.List.TakeWhile
import Polyloft.Proofs.Ty.Render

/-!
# Polyloft.Proofs.Ty.Grammar

Written types, told by their grammar. `IsType text t` says that a text as a whole is a type and that
it means `t`; it is the grammar of `Polyloft.Ty.Parser`, with nothing said of how a text is read:

```text
type   ::= single (ws "|" ws single)*
single ::= base "?"?
base   ::= name (ws args)?
args   ::= "<" ws list ws ">"  |  "[" ws list ws "]"
list   ::= type (ws "," ws type)*
```

The parser reads exactly the texts of the grammar. So no text has two meanings, and a text that is
outside of the grammar is read as `Any`.

## Proof shape

Each half is one property of parsers with a lemma for each combinator. What a parser reads is a text
of the grammar (`Parser.ReadsOnly`). In front of something that cannot belong to it, each text of
the grammar is read (`Parser.ReadsAll`); what may stand behind a part of a type are the conditions
`FollowsBase`, `FollowsSingle` and `FollowsType`. The induction is on the nesting that the parser
allows. The grammar is one mutual definition, and the length of a text bounds how deep it nests.
-/

namespace Polyloft

open Polyloft.Text

/-! ### Texts in parts -/

namespace Parser

variable {α : Type} {sep : Char} {R : List Char → α → Prop} {p : Parser α}

/-- Spaces and tabs, or nothing. -/
def Gap (ws : List Char) : Prop :=
  ∀ c ∈ ws, isGap c = true

/-- One or more texts of the language `R` with separators between them, and gaps around the
separators: `R (ws sep ws R)*`. -/
inductive Separated (sep : Char) (R : List Char → α → Prop) : List Char → List α → Prop where
  | one {text : List Char} {a : α} (h : R text a) : Separated sep R text [a]
  | more {text ws ws' rest : List Char} {a : α} {as : List α} (h : R text a) (hws : Gap ws)
      (hws' : Gap ws') (hmore : Separated sep R rest as) :
      Separated sep R (text ++ (ws ++ sep :: (ws' ++ rest))) (a :: as)

/-- The first text stands at the start. -/
theorem Separated.exists_first {text : List Char} {as : List α} (h : Separated sep R text as) :
    ∃ first a rest, R first a ∧ text = first ++ rest := by
  cases h with
  | one h => exact ⟨text, _, [], h, by simp⟩
  | more h => exact ⟨_, _, _, h, rfl⟩

/-- The last text stands at the end. -/
theorem Separated.exists_last {text : List Char} {as : List α} (h : Separated sep R text as) :
    ∃ before last a, R last a ∧ text = before ++ last := by
  induction h with
  | @one text a h => exact ⟨[], text, a, h, rfl⟩
  | @more text ws ws' rest _ _ _ _ _ _ ih =>
      obtain ⟨before, last, a, ha, rfl⟩ := ih
      exact ⟨text ++ (ws ++ sep :: (ws' ++ before)), last, a, ha, by simp⟩

theorem Gap.nil : Gap [] := by
  simp [Gap]

theorem Gap.gap_append {ws : List Char} (h : Gap ws) (cs : List Char) : gap (ws ++ cs) = gap cs :=
  List.dropWhile_append_of_pos h

/-- A text behind a gap starts as it does without the gap, or with the gap. -/
theorem Gap.head?_append {ws : List Char} (h : Gap ws) (cs : List Char) :
    (ws ++ cs).head? = cs.head? ∨ (ws ++ cs).head? = some ' ' ∨ (ws ++ cs).head? = some '\t' := by
  cases ws with
  | nil => exact .inl rfl
  | cons d ws =>
      have hd : d = ' ' ∨ d = '\t' := by simpa [isGap] using h d (List.mem_cons_self ..)
      exact .inr (by simpa using hd)

theorem exists_gap (cs : List Char) : ∃ ws, Gap ws ∧ cs = ws ++ gap cs :=
  ⟨cs.takeWhile isGap, fun _ hc => List.mem_takeWhile_imp hc,
    List.takeWhile_append_dropWhile.symm⟩

theorem char_eq_some {c : Char} {cs : List Char} {r : Unit × List Char}
    (h : char c cs = some r) : cs = c :: r.2 := by
  cases cs with
  | nil => simp [char] at h
  | cons d cs =>
      rw [char] at h
      split at h
      · rename_i hd
        rw [hd, ← Option.some.inj h]
      · simp at h

@[simp] theorem char_cons_self (c : Char) (cs : List Char) : char c (c :: cs) = some ((), cs) :=
  if_pos rfl

theorem char_eq_none {c : Char} {cs : List Char} (h : cs.head? ≠ some c) : char c cs = none := by
  cases cs with
  | nil => rfl
  | cons d cs => exact if_neg fun hd => h (by rw [hd]; rfl)

theorem eq_append_of_name {cs rest : List Char} {name : String}
    (h : Parser.name cs = some (name, rest)) : cs = name.toList ++ rest := by
  cases cs with
  | nil => simp [Parser.name] at h
  | cons c cs =>
      rw [Parser.name] at h
      split at h
      · obtain ⟨rfl, rfl⟩ := Prod.mk.inj (Option.some.inj h)
        rw [String.toList_ofList, List.cons_append, List.takeWhile_append_dropWhile]
      · simp at h

/-! ### What a parser reads -/

/-- What the parser reads is a text of the language `R`, with its meaning. -/
def ReadsOnly (p : Parser α) (R : List Char → α → Prop) : Prop :=
  ∀ cs a rest, p cs = some (a, rest) → ∃ text, cs = text ++ rest ∧ R text a

theorem ReadsOnly.after (hp : p.ReadsOnly R) {cs rest : List Char} {a : α}
    (h : after sep p cs = some (a, rest)) :
    ∃ ws ws' text, Gap ws ∧ Gap ws' ∧ cs = ws ++ sep :: (ws' ++ (text ++ rest)) ∧ R text a := by
  obtain ⟨r, hr, hread⟩ := Option.bind_eq_some_iff.1 h
  obtain ⟨ws, hws, hcs⟩ := exists_gap cs
  obtain ⟨ws', hws', hr'⟩ := exists_gap r.2
  obtain ⟨text, htext, ha⟩ := hp _ _ _ hread
  refine ⟨ws, ws', text, hws, hws', ?_, ha⟩
  rw [← htext, ← hr', ← char_eq_some hr, ← hcs]

/-- Repetition adds separated texts to a first one. -/
theorem ReadsOnly.many (hp : p.ReadsOnly R) (sep : Char) (cs : List Char) :
    ∀ first a, R first a → ∃ text, cs = text ++ (many (Parser.after sep p) cs).2 ∧
      Separated sep R (first ++ text) (a :: (many (Parser.after sep p) cs).1) := by
  fun_induction Parser.many (Parser.after sep p) cs with
  | case1 cs hread => exact fun first a ha => ⟨[], rfl, by simpa using Separated.one ha⟩
  | case2 cs b rest hread hlt more ih =>
      intro first a ha
      obtain ⟨ws, ws', text, hws, hws', hcs, hb⟩ := hp.after hread
      obtain ⟨text', hrest, hmore⟩ := ih text b hb
      have hwhole : text ++ rest = (text ++ text') ++ more.2 := by
        rw [List.append_assoc, ← hrest]
      refine ⟨ws ++ sep :: (ws' ++ (text ++ text')), ?_, .more ha hws hws' hmore⟩
      rw [hcs, hwhole]
      simp only [List.append_assoc, List.cons_append]
  | case3 cs b rest hread hlt =>
      exact fun first a ha => ⟨[], rfl, by simpa using Separated.one ha⟩

theorem ReadsOnly.sepBy (hp : p.ReadsOnly R) (sep : Char) :
    (sepBy sep p).ReadsOnly (Separated sep R) := by
  intro cs as rest h
  obtain ⟨⟨a, behind⟩, hread, heq⟩ := Option.map_eq_some_iff.1 h
  obtain ⟨rfl, rfl⟩ := Prod.mk.inj heq
  obtain ⟨first, rfl, ha⟩ := hp _ _ _ hread
  obtain ⟨text, htext, hmore⟩ := hp.many sep behind first a ha
  refine ⟨first ++ text, ?_, hmore⟩
  rw [List.append_assoc, ← htext]

/-! ### What is read -/

/-- Each text of the language `R` that is not longer than `bound` is read to its end, in front of
anything that satisfies `Follows`. -/
def ReadsAll (p : Parser α) (R : List Char → α → Prop) (Follows : List Char → Prop)
    (bound : Nat) : Prop :=
  ∀ text a rest, text.length ≤ bound → R text a → Follows rest →
    p (text ++ rest) = some (a, rest)

variable {Follows : List Char → Prop} {bound : Nat} {rest : List Char}

theorem after_gap {ws ws' : List Char} (hws : Gap ws) (hws' : Gap ws') (hsep : isGap sep = false)
    (p : Parser α) (cs : List Char) :
    after sep p (ws ++ sep :: (ws' ++ cs)) = p (gap cs) := by
  have hgap : gap (sep :: (ws' ++ cs)) = sep :: (ws' ++ cs) :=
    List.dropWhile_cons_of_neg (by simp [hsep])
  rw [after, hws.gap_append, hgap, char_cons_self, Option.bind_some, hws'.gap_append]

section

variable (hp : p.ReadsAll R Follows bound)
  (hstart : ∀ text a, R text a → ∀ cs, gap (text ++ cs) = text ++ cs)
  (hsep : isGap sep = false) (hfollows : ∀ ws cs, Gap ws → Follows (ws ++ sep :: cs))
  (hrest : Follows rest) (hend : after sep p rest = none)
include hp hstart hsep hfollows hrest hend

/-- A separator and what it separates are read one after the other. -/
theorem ReadsAll.many {text ws ws' : List Char} {as : List α} (h : Separated sep R text as)
    (hbound : text.length ≤ bound) (hws : Gap ws) (hws' : Gap ws') :
    many (after sep p) (ws ++ sep :: (ws' ++ (text ++ rest))) = (as, rest) := by
  induction h generalizing ws ws' with
  | @one text a h =>
      rw [Parser.many, after_gap hws hws' hsep, hstart text a h, hp text a rest hbound h hrest]
      dsimp only
      rw [if_pos (by simp only [List.length_append, List.length_cons]; omega), Parser.many, hend]
  | @more text vs vs' more a as h hvs hvs' hmore ih =>
      simp only [List.length_append, List.length_cons] at hbound
      have hread := hp text a (vs ++ sep :: (vs' ++ (more ++ rest))) (by omega) h
        (hfollows _ _ hvs)
      simp only [List.append_assoc, List.cons_append]
      rw [Parser.many, after_gap hws hws' hsep, hstart text a h, hread]
      dsimp only
      rw [if_pos (by simp only [List.length_append, List.length_cons]; omega),
        ih (by omega) hvs hvs']

theorem ReadsAll.sepBy {text : List Char} {as : List α} (h : Separated sep R text as)
    (hbound : text.length ≤ bound) : sepBy sep p (text ++ rest) = some (as, rest) := by
  cases h with
  | one h =>
      rw [Parser.sepBy, hp _ _ _ hbound h hrest, Option.map_some, Parser.many, hend]
  | @more text vs vs' more a as h hvs hvs' hmore =>
      simp only [List.length_append, List.length_cons] at hbound
      have hread := hp text a (vs ++ sep :: (vs' ++ (more ++ rest))) (by omega) h
        (hfollows _ _ hvs)
      simp only [List.append_assoc, List.cons_append]
      rw [Parser.sepBy, hread, Option.map_some,
        ReadsAll.many hp hstart hsep hfollows hrest hend hmore (by omega) hvs hvs']

end

end Parser

/-! ### The grammar -/

namespace Ty

open Polyloft.Parser

mutual

/-- A type: single types between bars, joined. -/
inductive IsType : List Char → Ty → Prop where
  | union {text : List Char} {ts : List Ty} (h : Separated '|' IsSingle text ts) :
      IsType text (unify ts)

/-- A single type: a question mark behind it does not count. -/
inductive IsSingle : List Char → Ty → Prop where
  | plain {text : List Char} {t : Ty} (h : IsBase text t) : IsSingle text t
  | marked {text : List Char} {t : Ty} (h : IsBase text t) : IsSingle (text ++ ['?']) t

/-- A name, with arguments or without. -/
inductive IsBase : List Char → Ty → Prop where
  | name {name : String} (hname : isTypeName name.toList = true) :
      IsBase name.toList (ofName name [])
  | args {name : String} {ws text : List Char} {ts : List Ty}
      (hname : isTypeName name.toList = true) (hws : Gap ws) (hargs : IsArgs text ts) :
      IsBase (name.toList ++ (ws ++ text)) (ofName name ts)

/-- Arguments: types between commas, in angle or square brackets. -/
inductive IsArgs : List Char → List Ty → Prop where
  | angle {ws ws' text : List Char} {ts : List Ty} (hws : Gap ws)
      (hlist : Separated ',' IsType text ts) (hws' : Gap ws') :
      IsArgs ('<' :: (ws ++ (text ++ (ws' ++ ['>'])))) ts
  | square {ws ws' text : List Char} {ts : List Ty} (hws : Gap ws)
      (hlist : Separated ',' IsType text ts) (hws' : Gap ws') :
      IsArgs ('[' :: (ws ++ (text ++ (ws' ++ [']'])))) ts

end

theorem exists_cons_of_isTypeName {cs : List Char} (h : isTypeName cs = true) :
    ∃ d ds, cs = d :: ds ∧ isNameStart d = true := by
  cases cs with
  | nil => simp [isTypeName] at h
  | cons d ds =>
      rw [isTypeName, Bool.and_eq_true] at h
      exact ⟨d, ds, rfl, h.1⟩

/-- A single type starts with its name. -/
theorem IsSingle.exists_cons {text : List Char} {t : Ty} (h : IsSingle text t) :
    ∃ d ds, text = d :: ds ∧ isNameStart d = true := by
  have ofBase {text : List Char} (h : IsBase text t) (more : List Char) :
      ∃ d ds, text ++ more = d :: ds ∧ isNameStart d = true := by
    cases h with
    | name hname =>
        obtain ⟨d, ds, hcs, hd⟩ := exists_cons_of_isTypeName hname
        exact ⟨d, ds ++ more, by rw [hcs, List.cons_append], hd⟩
    | @args name ws text ts hname =>
        obtain ⟨d, ds, hcs, hd⟩ := exists_cons_of_isTypeName hname
        exact ⟨d, ds ++ (ws ++ text) ++ more, by simp [hcs], hd⟩
  cases h with
  | plain h => simpa using ofBase h []
  | marked h => exact ofBase h _

theorem IsType.exists_cons {text : List Char} {t : Ty} (h : IsType text t) :
    ∃ d ds, text = d :: ds ∧ isNameStart d = true := by
  cases h with
  | union h =>
      obtain ⟨first, u, rest, hu, rfl⟩ := h.exists_first
      obtain ⟨d, ds, rfl, hd⟩ := hu.exists_cons
      exact ⟨d, ds ++ rest, rfl, hd⟩

/-- A type ends with a name, a bracket or a question mark. -/
theorem IsType.exists_concat {text : List Char} {t : Ty} (h : IsType text t) :
    ∃ cs c, text = cs ++ [c] ∧ isBlank c = false := by
  have ofArgs {text : List Char} {ts : List Ty} (h : IsArgs text ts) :
      ∃ cs c, text = cs ++ [c] ∧ isBlank c = false := by
    cases h with
    | @angle ws ws' text => exact ⟨'<' :: (ws ++ (text ++ ws')), '>', by simp, by decide⟩
    | @square ws ws' text => exact ⟨'[' :: (ws ++ (text ++ ws')), ']', by simp, by decide⟩
  have ofBase {text : List Char} {t : Ty} (h : IsBase text t) :
      ∃ cs c, text = cs ++ [c] ∧ isBlank c = false := by
    cases h with
    | @name name hname =>
        rcases List.eq_nil_or_concat name.toList with hnil | ⟨cs, c, hconcat⟩
        · rw [hnil] at hname
          simp [isTypeName] at hname
        · have hc := isNameRest_of_isTypeName hname c (by rw [hconcat]; simp)
          exact ⟨cs, c, by rw [hconcat, List.concat_eq_append], isBlank_of_isNameRest hc⟩
    | @args name ws text ts _ _ hargs =>
        obtain ⟨cs, c, rfl, hc⟩ := ofArgs hargs
        exact ⟨name.toList ++ (ws ++ cs), c, by simp, hc⟩
  cases h with
  | union h =>
      obtain ⟨before, last, u, hu, rfl⟩ := h.exists_last
      cases hu with
      | plain hu =>
          obtain ⟨cs, c, rfl, hc⟩ := ofBase hu
          exact ⟨before ++ cs, c, by simp, hc⟩
      | @marked text _ _ => exact ⟨before ++ text, '?', by simp, by decide⟩

theorem gap_append_of_exists_cons {text : List Char}
    (h : ∃ d ds, text = d :: ds ∧ isNameStart d = true) (cs : List Char) :
    gap (text ++ cs) = text ++ cs := by
  obtain ⟨d, ds, rfl, hd⟩ := h
  rw [List.cons_append, gap_of_isNameStart hd]

/-! ### What is read is a type -/

/-- A name with its arguments: a single type up to its question mark. -/
def baseParser (inner : Parser Ty) : Parser Ty := fun cs =>
  (Parser.name cs).map fun r =>
    match argsParser inner (gap r.2) with
    | some args => (ofName r.1 args.1, args.2)
    | none => (ofName r.1 [], r.2)

theorem singleParser_eq (inner : Parser Ty) (cs : List Char) :
    singleParser inner cs = (baseParser inner cs).map fun base =>
      match char '?' base.2 with
      | some rest => (base.1, rest.2)
      | none => base := by
  rw [singleParser, baseParser, Option.map_map]
  rfl

section

variable {inner : Parser Ty} (h : inner.ReadsOnly IsType)
include h

theorem exists_of_bracketParser {opening closing : Char} {cs rest : List Char} {ts : List Ty}
    (hread : bracketParser opening closing inner cs = some (ts, rest)) :
    ∃ ws text ws', Gap ws ∧ Gap ws' ∧ Separated ',' IsType text ts ∧
      cs = opening :: (ws ++ (text ++ (ws' ++ [closing]))) ++ rest := by
  obtain ⟨r, hopening, hread⟩ := Option.bind_eq_some_iff.1 hread
  obtain ⟨⟨args, behind⟩, hargs, hread⟩ := Option.bind_eq_some_iff.1 hread
  obtain ⟨r', hclosing, heq⟩ := Option.map_eq_some_iff.1 hread
  obtain ⟨rfl, rfl⟩ := Prod.mk.inj heq
  obtain ⟨ws, hws, hr⟩ := exists_gap r.2
  obtain ⟨ws', hws', hbehind⟩ := exists_gap behind
  obtain ⟨text, htext, hlist⟩ := h.sepBy ',' _ _ _ hargs
  refine ⟨ws, text, ws', hws, hws', hlist, ?_⟩
  rw [char_eq_some hopening, hr, htext, hbehind, char_eq_some hclosing]
  simp

theorem readsOnly_argsParser : (argsParser inner).ReadsOnly IsArgs := by
  intro cs ts rest hread
  rcases Option.or_eq_some_iff.1 hread with hread | ⟨-, hread⟩
  · obtain ⟨ws, text, ws', hws, hws', hlist, hcs⟩ := exists_of_bracketParser h hread
    exact ⟨_, hcs, .angle hws hlist hws'⟩
  · obtain ⟨ws, text, ws', hws, hws', hlist, hcs⟩ := exists_of_bracketParser h hread
    exact ⟨_, hcs, .square hws hlist hws'⟩

theorem readsOnly_baseParser : (baseParser inner).ReadsOnly IsBase := by
  intro cs t rest hread
  obtain ⟨⟨name, behind⟩, hname, heq⟩ := Option.map_eq_some_iff.1 hread
  have hspelled := isTypeName_of_name hname
  rw [eq_append_of_name hname]
  dsimp only at heq
  split at heq
  · rename_i args hargs
    obtain ⟨rfl, rfl⟩ := Prod.mk.inj heq
    obtain ⟨ws, hws, hbehind⟩ := exists_gap behind
    obtain ⟨text, htext, hargs⟩ := readsOnly_argsParser h _ _ _ hargs
    refine ⟨name.toList ++ (ws ++ text), ?_, .args hspelled hws hargs⟩
    rw [hbehind, htext]
    simp
  · obtain ⟨rfl, rfl⟩ := Prod.mk.inj heq
    exact ⟨name.toList, rfl, .name hspelled⟩

theorem readsOnly_singleParser : (singleParser inner).ReadsOnly IsSingle := by
  intro cs t rest hread
  rw [singleParser_eq] at hread
  obtain ⟨⟨u, behind⟩, hbase, heq⟩ := Option.map_eq_some_iff.1 hread
  obtain ⟨text, rfl, hu⟩ := readsOnly_baseParser h _ _ _ hbase
  dsimp only at heq
  split at heq
  · rename_i r hmark
    obtain ⟨rfl, rfl⟩ := Prod.mk.inj heq
    refine ⟨text ++ ['?'], ?_, .marked hu⟩
    rw [char_eq_some hmark]
    simp
  · obtain ⟨rfl, rfl⟩ := Prod.mk.inj heq
    exact ⟨text, rfl, .plain hu⟩

theorem readsOnly_unionParser : (unionParser inner).ReadsOnly IsType := by
  intro cs t rest hread
  obtain ⟨⟨ts, behind⟩, hlist, heq⟩ := Option.map_eq_some_iff.1 hread
  obtain ⟨rfl, rfl⟩ := Prod.mk.inj heq
  obtain ⟨text, htext, hts⟩ := (readsOnly_singleParser h).sepBy '|' _ _ _ hlist
  exact ⟨text, htext, .union hts⟩

end

theorem readsOnly_parserAt (depth : Nat) : (parserAt depth).ReadsOnly IsType := by
  induction depth with
  | zero => exact readsOnly_unionParser (by intro _ _ _ hread; simp at hread)
  | succ depth ih => exact readsOnly_unionParser ih

/-- What is read at the head of a text is a type of the grammar. -/
theorem parser_readsOnly : parser.ReadsOnly IsType := by
  intro cs
  exact readsOnly_parserAt cs.length cs

/-! ### Types are read -/

/-- What stands behind a name with its arguments: nothing that goes on with the name, and no
arguments. -/
structure FollowsBase (rest : List Char) : Prop where
  name : rest.head?.any isNameRest = false
  angle : (gap rest).head? ≠ some '<'
  square : (gap rest).head? ≠ some '['

/-- What stands behind a single type: no question mark either. -/
structure FollowsSingle (rest : List Char) : Prop extends FollowsBase rest where
  mark : rest.head? ≠ some '?'

/-- What stands behind a type: no bar either. -/
structure FollowsType (rest : List Char) : Prop extends FollowsSingle rest where
  bar : (gap rest).head? ≠ some '|'

/-- Signs that part the types of a list, or end it. -/
theorem FollowsSingle.of_sign {ws : List Char} (hws : Gap ws) {c : Char}
    (hc : c ∈ ['|', ',', '>', ']', '=']) (cs : List Char) : FollowsSingle (ws ++ c :: cs) := by
  have hsign : isNameRest c = false ∧ isGap c = false ∧ c ≠ '?' ∧ c ≠ '<' ∧ c ≠ '[' := by
    simp only [List.mem_cons, List.not_mem_nil, or_false] at hc
    rcases hc with rfl | rfl | rfl | rfl | rfl
    all_goals decide
  obtain ⟨hname, hgap, hmark, hangle, hsquare⟩ := hsign
  have hhead : (gap (ws ++ c :: cs)).head? = some c := by
    rw [hws.gap_append, gap, List.dropWhile_cons_of_neg (by simp [hgap]), List.head?_cons]
  have hfirst : (ws ++ c :: cs).head?.any isNameRest = false ∧
      (ws ++ c :: cs).head? ≠ some '?' := by
    rcases hws.head?_append (c :: cs) with h | h | h
    · rw [h]
      simpa using ⟨hname, hmark⟩
    · rw [h]
      decide
    · rw [h]
      decide
  exact ⟨⟨hfirst.1, by simpa [hhead] using hangle, by simpa [hhead] using hsquare⟩, hfirst.2⟩

theorem FollowsType.of_sign {ws : List Char} (hws : Gap ws) {c : Char}
    (hc : c ∈ [',', '>', ']', '=']) (cs : List Char) : FollowsType (ws ++ c :: cs) := by
  have hsign : isGap c = false ∧ c ≠ '|' := by
    simp only [List.mem_cons, List.not_mem_nil, or_false] at hc
    rcases hc with rfl | rfl | rfl | rfl
    all_goals decide
  refine ⟨.of_sign hws (List.mem_cons_of_mem _ hc) cs, ?_⟩
  rw [hws.gap_append, gap, List.dropWhile_cons_of_neg (by simp [hsign.1]), List.head?_cons]
  simpa using hsign.2

theorem FollowsType.nil : FollowsType [] :=
  ⟨⟨⟨rfl, by simp [gap], by simp [gap]⟩, by simp⟩, by simp [gap]⟩

theorem FollowsType.no_bar {rest : List Char} (h : FollowsType rest) (p : Parser Ty) :
    after '|' p rest = none := by
  rw [after, char_eq_none h.bar, Option.bind_none]

theorem FollowsBase.no_args {rest : List Char} (h : FollowsBase rest) (inner : Parser Ty) :
    argsParser inner (gap rest) = none := by
  rw [argsParser, bracketParser, bracketParser, char_eq_none h.angle, char_eq_none h.square]
  rfl

section

variable {inner : Parser Ty} {bound : Nat} (h : inner.ReadsAll IsType FollowsType bound)
include h

theorem bracketParser_append (opening : Char) {closing : Char} (hclosing : closing ∈ ['>', ']'])
    {ws ws' text : List Char} {ts : List Ty} (hws : Gap ws) (hws' : Gap ws')
    (hlist : Separated ',' IsType text ts) (hbound : text.length ≤ bound) (rest : List Char) :
    bracketParser opening closing inner
      (opening :: (ws ++ (text ++ (ws' ++ [closing]))) ++ rest) = some (ts, rest) := by
  have hsign : isGap closing = false ∧ closing ≠ ',' ∧ closing ∈ [',', '>', ']', '='] := by
    simp only [List.mem_cons, List.not_mem_nil, or_false] at hclosing
    rcases hclosing with rfl | rfl
    all_goals decide
  obtain ⟨hgap, hcomma, hmem⟩ := hsign
  have hbehind : gap (ws' ++ closing :: rest) = closing :: rest := by
    rw [hws'.gap_append, gap, List.dropWhile_cons_of_neg (by simp [hgap])]
  have hend : after ',' inner (ws' ++ closing :: rest) = none := by
    rw [after, hbehind, char_eq_none (by simpa using hcomma), Option.bind_none]
  have hread : sepBy ',' inner (text ++ (ws' ++ closing :: rest)) =
      some (ts, ws' ++ closing :: rest) :=
    ReadsAll.sepBy h (fun _ _ ht => gap_append_of_exists_cons ht.exists_cons) (by decide)
      (fun _ _ hws => .of_sign hws (by simp) _) (.of_sign hws' hmem rest) hend hlist hbound
  have hstart : gap (text ++ (ws' ++ closing :: rest)) = text ++ (ws' ++ closing :: rest) := by
    obtain ⟨first, t, more, ht, rfl⟩ := hlist.exists_first
    obtain ⟨d, ds, rfl, hd⟩ := ht.exists_cons
    exact gap_append_of_exists_cons ⟨d, ds ++ more, rfl, hd⟩ _
  rw [bracketParser]
  simp only [List.cons_append, List.append_assoc, char_cons_self, Option.bind_some,
    hws.gap_append, List.nil_append, hstart, hread, hbehind, Option.map_some]

theorem argsParser_append {text : List Char} {ts : List Ty} (hargs : IsArgs text ts)
    (hbound : text.length ≤ bound + 1) (rest : List Char) :
    argsParser inner (gap (text ++ rest)) = some (ts, rest) := by
  cases hargs with
  | @angle ws ws' text ts hws hlist hws' =>
      have hread := bracketParser_append h '<' (by simp : '>' ∈ ['>', ']']) hws hws' hlist
        (by simp only [List.length_append, List.length_cons] at hbound; omega) rest
      rw [argsParser]
      exact Option.or_eq_some_iff.2 (.inl hread)
  | @square ws ws' text ts hws hlist hws' =>
      have hread := bracketParser_append h '[' (by simp : ']' ∈ ['>', ']']) hws hws' hlist
        (by simp only [List.length_append, List.length_cons] at hbound; omega) rest
      rw [argsParser]
      exact Option.or_eq_some_iff.2 (.inr ⟨rfl, hread⟩)

theorem readsAll_baseParser : (baseParser inner).ReadsAll IsBase FollowsBase (bound + 1) := by
  intro text t rest hbound ht hrest
  cases ht with
  | name hname =>
      rw [baseParser, name_append hname hrest.name, Option.map_some]
      dsimp only
      rw [hrest.no_args]
  | @args name ws text ts hname hws hargs =>
      have hfirst : (ws ++ (text ++ rest)).head?.any isNameRest = false := by
        rcases hws.head?_append (text ++ rest) with h | h | h
        · rw [h]
          cases hargs <;> rfl
        · rw [h]
          rfl
        · rw [h]
          rfl
      have hread := argsParser_append h hargs
        (by simp only [List.length_append] at hbound; omega) rest
      rw [List.append_assoc, List.append_assoc, baseParser, name_append hname hfirst,
        Option.map_some]
      dsimp only
      rw [hws.gap_append, hread]

theorem readsAll_singleParser :
    (singleParser inner).ReadsAll IsSingle FollowsSingle (bound + 1) := by
  intro text t rest hbound ht hrest
  rw [singleParser_eq]
  cases ht with
  | plain ht =>
      rw [readsAll_baseParser h _ _ _ hbound ht hrest.toFollowsBase, Option.map_some]
      dsimp only
      rw [char_eq_none hrest.mark]
  | @marked text t ht =>
      have hmark : FollowsBase ('?' :: rest) :=
        ⟨rfl, by simp [gap, isGap], by simp [gap, isGap]⟩
      rw [List.length_append] at hbound
      rw [List.append_assoc, List.singleton_append,
        readsAll_baseParser h _ _ _ (by omega) ht hmark, Option.map_some]
      rfl

theorem readsAll_unionParser : (unionParser inner).ReadsAll IsType FollowsType (bound + 1) := by
  intro text t rest hbound ht hrest
  cases ht with
  | union hlist =>
      have hread := ReadsAll.sepBy (readsAll_singleParser h)
        (fun _ _ hu => gap_append_of_exists_cons hu.exists_cons) (by decide)
        (fun _ _ hws => .of_sign hws (by simp) _) hrest.toFollowsSingle (hrest.no_bar _) hlist
        hbound
      rw [unionParser, hread, Option.map_some]

end

theorem readsAll_parserAt (depth : Nat) :
    (parserAt depth).ReadsAll IsType FollowsType depth := by
  induction depth with
  | zero =>
      intro text t rest hbound ht
      obtain ⟨d, ds, rfl, -⟩ := ht.exists_cons
      simp at hbound
  | succ depth ih => exact readsAll_unionParser ih

/-- A type of the grammar is read to its end. -/
theorem parser_append {text rest : List Char} {t : Ty} (h : IsType text t)
    (hrest : FollowsType rest) : parser (text ++ rest) = some (t, rest) := by
  rw [parser]
  exact readsAll_parserAt _ _ _ _ (by simp) h hrest

theorem parse?_eq_some_iff {text : List Char} {t : Ty} : parse? text = some t ↔ IsType text t := by
  constructor
  · intro h
    rw [parse?] at h
    split at h
    · rename_i u hread
      obtain rfl := Option.some.inj h
      obtain ⟨whole, htext, hu⟩ := parser_readsOnly _ _ _ hread
      rw [List.append_nil] at htext
      rwa [htext]
    · simp at h
  · intro h
    have hread := parser_append h FollowsType.nil
    rw [List.append_nil] at hread
    rw [parse?, hread]

end Ty

/-- A text has at most one meaning in the grammar. What any text is read as is the meaning of the
text without the blanks around it, and `Any` if it has none. -/
theorem types_are_told_by_grammar :
    (∀ text t u, Ty.IsType text t → Ty.IsType text u → t = u) ∧
    ∀ text : List Char, (∀ t, Ty.IsType (strip text) t → Ty.parse text = t) ∧
      ((¬∃ t, Ty.IsType (strip text) t) → Ty.parse text = .any) := by
  refine ⟨?_, fun text => ⟨?_, ?_⟩⟩
  · intro text t u ht hu
    have hsame : some t = some u :=
      (Ty.parse?_eq_some_iff.2 ht).symm.trans (Ty.parse?_eq_some_iff.2 hu)
    exact Option.some.inj hsame
  · intro t ht
    rw [Ty.parse, Ty.parse?_eq_some_iff.2 ht, Option.getD_some]
  · intro hnone
    cases hread : Ty.parse? (strip text) with
    | none => rw [Ty.parse, hread, Option.getD_none]
    | some t => exact absurd ⟨t, Ty.parse?_eq_some_iff.1 hread⟩ hnone

/-- Both kinds of brackets, gaps, a question mark and a union with `Any`; and a type that is not
finished. -/
theorem types_are_told_by_grammar_nested :
    let text := "\u00a0Map [K ,Any<V>?|B]\n".toList
    (Ty.IsType (strip text) (.named "Map" [.simple "K", .any]) ∧
      Ty.parse text = .named "Map" [.simple "K", .any] ∧
      ∀ u, Ty.IsType (strip text) u → .named "Map" [.simple "K", .any] = u) ∧
    (¬∃ t, Ty.IsType (strip "Map<String,".toList) t) ∧ Ty.parse "Map<String,".toList = .any := by
  intro text
  have hone (name : String) (args : List Ty) : Ty.unify [.named name args] = .named name args :=
    Ty.unify_of_named (by simp [Ty.isNamed]) (List.pairwise_singleton _ _)
  have hname {name : String} (h : Ty.isTypeName name.toList = true) (hany : name ≠ "Any") :
      Ty.IsType name.toList (.simple name) := by
    have htype := Ty.IsType.union (.one (.plain (.name h)))
    rwa [Ty.ofName, if_neg hany, hone] at htype
  have hspace : Parser.Gap [' '] := by simp [Parser.Gap, Parser.isGap]
  have hany : Ty.IsType "Any<V>?|B".toList .any := by
    have hv : Ty.IsType "V".toList (.simple "V") := hname (by decide) (by decide)
    have hargs : Ty.IsArgs "<V>".toList [.simple "V"] := .angle .nil (.one hv) .nil
    have hbase : Ty.IsBase "Any<V>".toList .any :=
      .args (by decide : Ty.isTypeName "Any".toList = true) .nil hargs
    have hb : Ty.IsSingle "B".toList (.simple "B") :=
      .plain (.name (by decide : Ty.isTypeName "B".toList = true))
    exact .union (.more (.marked hbase) .nil .nil (.one hb))
  have hmap : Ty.IsType (strip text) (.named "Map" [.simple "K", .any]) := by
    have hk : Ty.IsType "K".toList (.simple "K") := hname (by decide) (by decide)
    have hargs : Ty.IsArgs "[K ,Any<V>?|B]".toList [.simple "K", .any] :=
      .square .nil (.more hk hspace .nil (.one hany)) .nil
    have hbase : Ty.IsBase "Map [K ,Any<V>?|B]".toList (.named "Map" [.simple "K", .any]) :=
      .args (by decide : Ty.isTypeName "Map".toList = true) hspace hargs
    have hstrip : strip text = "Map [K ,Any<V>?|B]".toList := by decide
    rw [hstrip, ← hone]
    exact .union (.one (.plain hbase))
  have hopen : ¬∃ t, Ty.IsType (strip "Map<String,".toList) t := by
    rintro ⟨t, ht⟩
    have hnone : (Ty.parse? (strip "Map<String,".toList)).isNone = true := by decide +kernel
    rw [Ty.parse?_eq_some_iff.2 ht] at hnone
    simp at hnone
  obtain ⟨hunique, hread⟩ := types_are_told_by_grammar
  exact ⟨⟨hmap, (hread _).1 _ hmap, fun u => hunique _ _ u hmap⟩, hopen, (hread _).2 hopen⟩

end Polyloft
