import Polyloft.Proofs.Ty.Join

/-!
# Polyloft.Proofs.Ty.Render

Written types read back. The types that can be written are the well-formed ones in which every name
is a name of the grammar and none is `Any`. Reading the written form of such a type gives the type,
with the same names, arguments and order of members; and what any text is read as can be written, so
that reading a second time changes nothing.

## Proof shape

The parser is run on a written type with something behind it that cannot belong to the type:
nothing, a comma or a closing bracket, and for one member of a union also the next bar. The
induction is on the type. It needs a bound on the nesting that the parser allows, and the length of the text is one:
an argument is shorter than the type it stands in.
-/

namespace Polyloft

open Polyloft.Text

/-! ### Types that can be written -/

namespace Ty

open Polyloft.Parser

/-- Every name in the type is a name of the grammar, and none of them is `Any`. -/
inductive Spelled : Ty → Prop where
  | any : Spelled .any
  | named {name : String} {args : List Ty} (hname : isTypeName name.toList = true)
      (hany : name ≠ "Any") (hargs : ∀ t ∈ args, Spelled t) : Spelled (.named name args)
  | union {members : List Ty} (hmembers : ∀ t ∈ members, Spelled t) : Spelled (.union members)

theorem Spelled.ofName {name : String} {args : List Ty} (hname : isTypeName name.toList = true)
    (h : ∀ t ∈ args, Spelled t) : Spelled (ofName name args) := by
  unfold Ty.ofName
  split
  · exact .any
  · exact .named hname ‹_› h

theorem Spelled.of_mem_flatten {t s : Ty} (h : Spelled t) (hs : s ∈ t.flatten) : Spelled s := by
  cases h with
  | any =>
      obtain rfl := List.mem_singleton.1 hs
      exact .any
  | named hname hany hargs =>
      obtain rfl := List.mem_singleton.1 hs
      exact .named hname hany hargs
  | union hmembers => exact hmembers s hs

theorem Spelled.unify {ts : List Ty} (h : ∀ t ∈ ts, Spelled t) : Spelled (unify ts) := by
  have hdistinct : ∀ s ∈ distinct ts, Spelled s := by
    intro s hs
    obtain ⟨t, ht, hst⟩ := List.mem_flatMap.1 (distinct_subset ts hs)
    exact (h t ht).of_mem_flatten hst
  unfold Ty.unify
  split
  · exact .any
  · unfold ofMembers
    split
    · exact .named (by decide) (by decide) (by simp)
    · rename_i t heq
      exact hdistinct t (by simp [heq])
    · split
      · exact .union hdistinct
      · exact .any

/-- Every text is read as a type that can be written. -/
theorem Spelled.ofString (s : String) : Spelled (ofString s) :=
  of_ofString (fun _ _ hname h => .ofName hname h) (fun _ h => .unify h) .any s

/-! ### Written forms -/

/-- The characters of a written type. -/
def chars (t : Ty) : List Char :=
  t.render.toList

theorem chars_any : chars .any = "Any".toList := rfl

theorem toList_renderSep (sep : String) (t : Ty) (ts : List Ty) :
    (renderSep sep (t :: ts)).toList = t.chars ++ ts.flatMap fun u => sep.toList ++ u.chars := by
  induction ts generalizing t with
  | nil => simp [renderSep, chars]
  | cons u ts ih => simp [renderSep, ih u, chars]

theorem chars_named_nil (name : String) : chars (.named name []) = name.toList := by
  rw [chars, render]

theorem chars_named_cons (name : String) (t : Ty) (ts : List Ty) :
    chars (.named name (t :: ts)) =
      name.toList ++ '<' :: (t.chars ++ (ts.flatMap fun u => ", ".toList ++ u.chars) ++ ['>']) := by
  rw [chars, render]
  simp only [String.toList_append, toList_renderSep]
  simp

theorem chars_union_cons (t : Ty) (ts : List Ty) :
    chars (.union (t :: ts)) = t.chars ++ ts.flatMap fun u => " | ".toList ++ u.chars := by
  rw [chars, render, toList_renderSep]

end Ty

/-! ### Parsers on what they have written -/

namespace Parser

open Polyloft.Ty (isTypeName)

theorem name_append {name : String} {rest : List Char} (hname : isTypeName name.toList = true)
    (hrest : rest.head?.any isNameRest = false) :
    Parser.name (name.toList ++ rest) = some (name, rest) := by
  cases hchars : name.toList with
  | nil => simp [hchars, isTypeName] at hname
  | cons c cs =>
      rw [hchars, isTypeName, Bool.and_eq_true, List.all_eq_true] at hname
      have hstop : rest.takeWhile isNameRest = [] ∧ rest.dropWhile isNameRest = rest := by
        cases rest with
        | nil => exact ⟨rfl, rfl⟩
        | cons d ds => simp_all
      have htake : (cs ++ rest).takeWhile isNameRest = cs := by
        rw [List.takeWhile_append_of_pos hname.2, hstop.1, List.append_nil]
      have hdrop : (cs ++ rest).dropWhile isNameRest = rest := by
        rw [List.dropWhile_append_of_pos hname.2, hstop.2]
      rw [List.cons_append, Parser.name, if_pos hname.1, htake, hdrop, ← hchars,
        String.ofList_toList]

variable {α : Type} {p : Parser α} {sep : Char} {glue : List Char} {text : α → List Char}
  {Stops : List Char → Prop} {rest : List Char}

theorem stops_flatMap {as : List α} (hstops : ∀ cs, Stops (glue ++ cs)) (hrest : Stops rest) :
    Stops (as.flatMap (fun a => glue ++ text a) ++ rest) := by
  cases as with
  | nil => exact hrest
  | cons b as =>
      rw [List.flatMap_cons, List.append_assoc, List.append_assoc]
      exact hstops _

/-- Repeated parts are read one by one if the glue between them is read as the separator. -/
theorem many_after_append {as : List α}
    (hglue : ∀ a ∈ as, ∀ cs, after sep p (glue ++ (text a ++ cs)) = p (text a ++ cs))
    (hread : ∀ a ∈ as, ∀ cs, Stops cs → p (text a ++ cs) = some (a, cs))
    (hne : glue ≠ []) (hstops : ∀ cs, Stops (glue ++ cs)) (hrest : Stops rest)
    (hend : after sep p rest = none) :
    many (after sep p) (as.flatMap (fun a => glue ++ text a) ++ rest) = (as, rest) := by
  induction as with
  | nil => rw [List.flatMap_nil, List.nil_append, many, hend]
  | cons a as ih =>
      rw [List.forall_mem_cons] at hglue hread
      have hlength : 0 < glue.length := List.length_pos_iff.2 hne
      rw [List.flatMap_cons, List.append_assoc, List.append_assoc, many, hglue.1,
        hread.1 _ (stops_flatMap hstops hrest)]
      dsimp only
      rw [if_pos (by simp only [List.length_append]; omega), ih hglue.2 hread.2]

theorem sepBy_append {a : α} {as : List α}
    (hglue : ∀ b ∈ as, ∀ cs, after sep p (glue ++ (text b ++ cs)) = p (text b ++ cs))
    (hread : ∀ b ∈ a :: as, ∀ cs, Stops cs → p (text b ++ cs) = some (b, cs))
    (hne : glue ≠ []) (hstops : ∀ cs, Stops (glue ++ cs)) (hrest : Stops rest)
    (hend : after sep p rest = none) :
    sepBy sep p (text a ++ (as.flatMap (fun b => glue ++ text b) ++ rest)) =
      some (a :: as, rest) := by
  rw [List.forall_mem_cons] at hread
  rw [sepBy, hread.1 _ (stops_flatMap hstops hrest), Option.map_some,
    many_after_append hglue hread.2 hne hstops hrest hend]

end Parser

namespace Ty

open Polyloft.Parser

/-! ### What stands behind a type -/

/-- Nothing, a comma or a closing bracket: what stands behind a written type. -/
def EndsType (rest : List Char) : Prop :=
  rest = [] ∨ (∃ cs, rest = ',' :: cs) ∨ ∃ cs, rest = '>' :: cs

/-- What stands behind one type of a union: the end of the union, or the next bar. -/
def EndsMember (rest : List Char) : Prop :=
  EndsType rest ∨ ∃ cs, rest = ' ' :: '|' :: cs

theorem EndsMember.head? {rest : List Char} (h : EndsMember rest) :
    rest.head?.any isNameRest = false := by
  rcases h with (rfl | ⟨cs, rfl⟩ | ⟨cs, rfl⟩) | ⟨cs, rfl⟩ <;> rfl

theorem EndsMember.no_args {rest : List Char} (h : EndsMember rest) (inner : Parser Ty) :
    argsParser inner (gap rest) = none := by
  rcases h with (rfl | ⟨cs, rfl⟩ | ⟨cs, rfl⟩) | ⟨cs, rfl⟩ <;> rfl

theorem EndsMember.no_mark {rest : List Char} (h : EndsMember rest) : char '?' rest = none := by
  rcases h with (rfl | ⟨cs, rfl⟩ | ⟨cs, rfl⟩) | ⟨cs, rfl⟩ <;> rfl

theorem EndsType.no_bar {rest : List Char} (h : EndsType rest) (p : Parser Ty) :
    after '|' p rest = none := by
  rcases h with rfl | ⟨cs, rfl⟩ | ⟨cs, rfl⟩ <;> rfl

/-! ### Names -/

theorem isNameRest_of_isNameStart {c : Char} (h : isNameStart c = true) : isNameRest c = true := by
  simp only [isNameStart, isNameRest, Char.isAlphanum, Bool.or_eq_true] at *
  exact h.imp_left Or.inl

theorem isNameRest_of_isTypeName {cs : List Char} (h : isTypeName cs = true) :
    ∀ c ∈ cs, isNameRest c = true := by
  cases cs with
  | nil => simp
  | cons c cs =>
      rw [isTypeName, Bool.and_eq_true, List.all_eq_true] at h
      exact List.forall_mem_cons.2 ⟨isNameRest_of_isNameStart h.1, h.2⟩

theorem isBlank_of_isNameRest {c : Char} (h : isNameRest c = true) : isBlank c = false := by
  have hrest : isNameRest c =
      ((decide ('A'.val ≤ c.val ∧ c.val ≤ 'Z'.val) ||
          (decide ('a'.val ≤ c.val) && decide (c.val ≤ 'z'.val))) ||
        (decide ('0'.val ≤ c.val) && decide (c.val ≤ '9'.val)) || c == '_') := rfl
  have hrange : 0x21 ≤ c.toNat ∧ c.toNat < 0x85 := by
    simp only [hrest, Bool.or_eq_true, Bool.and_eq_true, decide_eq_true_eq, beq_iff_eq,
      UInt32.le_iff_toNat_le] at h
    rcases h with ((h | h) | h) | rfl
    · simp at h
      omega
    · simp at h
      omega
    · simp at h
      omega
    · decide
  simp [isBlank]
  omega

/-- A written type starts with a name. -/
theorem exists_chars_eq_cons {t : Ty} (h : WellFormed t) (hs : Spelled t) :
    ∃ c cs, t.chars = c :: cs ∧ isNameStart c = true := by
  have ofName {name : String} (hname : isTypeName name.toList = true) (more : List Char) :
      ∃ c cs, name.toList ++ more = c :: cs ∧ isNameStart c = true := by
    cases hchars : name.toList with
    | nil => simp [hchars, isTypeName] at hname
    | cons c cs =>
        rw [hchars, isTypeName, Bool.and_eq_true] at hname
        exact ⟨c, cs ++ more, rfl, hname.1⟩
  induction h with
  | any => exact ⟨'A', ['n', 'y'], by decide, by decide⟩
  | @named name args _ _ =>
      cases hs with
      | named hname _ _ =>
          cases args with
          | nil => simpa [chars_named_nil] using ofName hname []
          | cons a as =>
              rw [chars_named_cons]
              exact ofName hname _
  | @union members htwo _ _ _ _ ih =>
      cases hs with
      | union hmembers =>
          cases members with
          | nil => simp at htwo
          | cons t ts =>
              obtain ⟨c, cs, hchars, hc⟩ := ih t (List.mem_cons_self ..)
                (hmembers t (List.mem_cons_self ..))
              exact ⟨c, cs ++ _, by rw [chars_union_cons, hchars]; rfl, hc⟩

/-- A written type ends with a name or a bracket. -/
theorem exists_chars_eq_concat {t : Ty} (h : WellFormed t) (hs : Spelled t) :
    ∃ cs c, t.chars = cs ++ [c] ∧ isBlank c = false := by
  induction h with
  | any => exact ⟨['A', 'n'], 'y', by decide, by decide⟩
  | @named name args _ _ =>
      cases hs with
      | named hname _ _ =>
          cases args with
          | nil =>
              rw [chars_named_nil]
              rcases List.eq_nil_or_concat name.toList with hnil | ⟨cs, c, hconcat⟩
              · rw [hnil] at hname
                simp [isTypeName] at hname
              · rw [List.concat_eq_append] at hconcat
                exact ⟨cs, c, hconcat,
                  isBlank_of_isNameRest (isNameRest_of_isTypeName hname c (by simp [hconcat]))⟩
          | cons a as =>
              refine ⟨name.toList ++ '<' :: (a.chars ++ as.flatMap fun u => ", ".toList ++ u.chars),
                '>', ?_, by decide⟩
              rw [chars_named_cons]
              simp
  | @union members htwo _ _ _ _ ih =>
      cases hs with
      | union hmembers =>
          rcases List.eq_nil_or_concat members with rfl | ⟨ts, t, rfl⟩
          · simp at htwo
          · rw [List.concat_eq_append] at *
            obtain ⟨cs, c, hchars, hc⟩ := ih t (by simp) (hmembers t (by simp))
            cases ts with
            | nil => simp at htwo
            | cons u us =>
                refine ⟨(u.chars ++ us.flatMap fun v => " | ".toList ++ v.chars) ++
                  (" | ".toList ++ cs), c, ?_, hc⟩
                rw [List.cons_append, chars_union_cons, List.flatMap_append, List.flatMap_singleton,
                  hchars]
                simp

/-! ### Reading back -/

theorem gap_of_isNameStart {c : Char} (h : isNameStart c = true) (cs : List Char) :
    gap (c :: cs) = c :: cs := by
  have hgap : isGap c = false := by
    cases hc : isGap c with
    | false => rfl
    | true =>
        rcases Bool.or_eq_true_iff.1 hc with hc | hc
        · rw [beq_iff_eq.1 hc] at h
          exact absurd h (by decide)
        · rw [beq_iff_eq.1 hc] at h
          exact absurd h (by decide)
  rw [gap, List.dropWhile_cons_of_neg (by simp [hgap])]

theorem gap_chars_append {t : Ty} (h : WellFormed t) (hs : Spelled t) (cs : List Char) :
    gap (t.chars ++ cs) = t.chars ++ cs := by
  obtain ⟨c, rest, hchars, hc⟩ := exists_chars_eq_cons h hs
  rw [hchars, List.cons_append, gap_of_isNameStart hc]

/-- The parser for the arguments of a type that may nest `depth` deep. -/
def innerParser : Nat → Parser Ty
  | 0 => fun _ => none
  | depth + 1 => parserAt depth

theorem parserAt_eq (depth : Nat) : parserAt depth = unionParser (innerParser depth) := by
  cases depth <;> rfl

/-- A name without arguments. -/
theorem singleParser_name {name : String} (hname : isTypeName name.toList = true)
    {rest : List Char} (hrest : EndsMember rest) (inner : Parser Ty) :
    singleParser inner (name.toList ++ rest) = some (ofName name [], rest) := by
  rw [singleParser, name_append hname hrest.head?, Option.map_some]
  simp only [hrest.no_args, hrest.no_mark]

/-- The glue between arguments, and between the members of a union, is read over. -/
theorem after_comma (p : Parser Ty) (cs : List Char) :
    after ',' p (", ".toList ++ cs) = p (gap cs) :=
  rfl

@[inherit_doc after_comma]
theorem after_bar (p : Parser Ty) (cs : List Char) :
    after '|' p (" | ".toList ++ cs) = p (gap cs) :=
  rfl

/-- A name with arguments that the parser for arguments reads back. -/
theorem singleParser_args {name : String} (hname : isTypeName name.toList = true) {t : Ty}
    {ts : List Ty} (hwf : ∀ u ∈ t :: ts, WellFormed u) (hs : ∀ u ∈ t :: ts, Spelled u)
    {inner : Parser Ty}
    (hread : ∀ u ∈ t :: ts, ∀ cs, EndsType cs → inner (u.chars ++ cs) = some (u, cs))
    {rest : List Char} (hrest : EndsMember rest) :
    singleParser inner (chars (.named name (t :: ts)) ++ rest) =
      some (ofName name (t :: ts), rest) := by
  have hlist : sepBy ',' inner
      (t.chars ++ ((ts.flatMap fun u => ", ".toList ++ u.chars) ++ '>' :: rest)) =
        some (t :: ts, '>' :: rest) := by
    refine sepBy_append ?_ hread (by decide) ?_ (.inr (.inr ⟨rest, rfl⟩)) rfl
    · intro u hu cs
      rw [after_comma, gap_chars_append (hwf u (List.mem_cons_of_mem _ hu))
        (hs u (List.mem_cons_of_mem _ hu))]
    · exact fun cs => .inr (.inl ⟨_, rfl⟩)
  have hbracket : bracketParser '<' '>' inner
      ('<' :: (t.chars ++ ((ts.flatMap fun u => ", ".toList ++ u.chars) ++ '>' :: rest))) =
        some (t :: ts, rest) := by
    have hgap := gap_chars_append (hwf t (List.mem_cons_self ..)) (hs t (List.mem_cons_self ..))
      ((ts.flatMap fun u => ", ".toList ++ u.chars) ++ '>' :: rest)
    rw [bracketParser, char, if_pos rfl, Option.bind_some, hgap, hlist]
    rfl
  have hargs (cs : List Char) : gap ('<' :: cs) = '<' :: cs := rfl
  rw [chars_named_cons, List.append_assoc, List.cons_append, List.append_assoc, List.append_assoc,
    singleParser, name_append hname rfl, Option.map_some]
  simp only [hargs, argsParser]
  rw [List.singleton_append, hbracket]
  simp only [Option.some_or, hrest.no_mark]

/-- A union of types that are read back is read back, and so is a single such type. -/
theorem unionParser_members {t : Ty} {ts : List Ty} (hwf : ∀ u ∈ t :: ts, WellFormed u)
    (hs : ∀ u ∈ t :: ts, Spelled u) {inner : Parser Ty}
    (hread : ∀ u ∈ t :: ts, ∀ cs, EndsMember cs →
      singleParser inner (u.chars ++ cs) = some (u, cs))
    {rest : List Char} (hrest : EndsType rest) :
    unionParser inner (t.chars ++ ((ts.flatMap fun u => " | ".toList ++ u.chars) ++ rest)) =
      some (unify (t :: ts), rest) := by
  have hlist : sepBy '|' (singleParser inner)
      (t.chars ++ ((ts.flatMap fun u => " | ".toList ++ u.chars) ++ rest)) =
        some (t :: ts, rest) := by
    refine sepBy_append ?_ hread (by decide) ?_ (.inl hrest) (hrest.no_bar _)
    · intro u hu cs
      rw [after_bar, gap_chars_append (hwf u (List.mem_cons_of_mem _ hu))
        (hs u (List.mem_cons_of_mem _ hu))]
    · exact fun cs => .inr ⟨_, rfl⟩
  rw [unionParser, hlist]
  rfl

/-- The parsers read a written type back, in front of what ends it. The one for single types is
asked only for named types: it is not the one that reads unions. -/
def ReadBack (t : Ty) : Prop :=
  ∀ depth, t.chars.length ≤ depth →
    (∀ rest, EndsType rest → parserAt depth (t.chars ++ rest) = some (t, rest)) ∧
    (t.isNamed = true → ∀ rest, EndsMember rest →
      singleParser (innerParser depth) (t.chars ++ rest) = some (t, rest))

theorem length_chars_le (glue : List Char) {t u : Ty} {ts : List Ty} (hu : u ∈ t :: ts) :
    u.chars.length ≤ (t.chars ++ ts.flatMap fun v => glue ++ v.chars).length := by
  rcases List.mem_cons.1 hu with rfl | hu
  · simp
  · have hsub : (glue ++ u.chars).Sublist (ts.flatMap fun v => glue ++ v.chars) :=
      List.sublist_flatten_of_mem (List.mem_map_of_mem hu)
    have hlength := hsub.length_le
    simp only [List.length_append] at hlength ⊢
    omega

/-- A type that is read as a single one is read as a union of one. -/
theorem parserAt_of_single {t : Ty} (h : WellFormed t) (hs : Spelled t) (hunify : unify [t] = t)
    {depth : Nat} (hread : ∀ rest, EndsMember rest →
      singleParser (innerParser depth) (t.chars ++ rest) = some (t, rest))
    {rest : List Char} (hrest : EndsType rest) :
    parserAt depth (t.chars ++ rest) = some (t, rest) := by
  have hunion : unionParser (innerParser depth) (t.chars ++ rest) = some (unify [t], rest) :=
    @unionParser_members t [] (by simpa using h) (by simpa using hs) (innerParser depth)
      (by simpa using hread) rest hrest
  rw [parserAt_eq, hunion, hunify]

theorem readBack_named {name : String} {args : List Ty} (hwf : ∀ t ∈ args, WellFormed t)
    (hname : isTypeName name.toList = true) (hany : name ≠ "Any")
    (hs : ∀ t ∈ args, Spelled t) (ih : ∀ t ∈ args, ReadBack t) :
    ReadBack (.named name args) := by
  intro depth hdepth
  have hof : ofName name args = .named name args := if_neg hany
  have hsingle : ∀ rest, EndsMember rest →
      singleParser (innerParser depth) (chars (.named name args) ++ rest) =
        some (.named name args, rest) := by
    intro rest hrest
    cases args with
    | nil =>
        rw [chars_named_nil, singleParser_name hname hrest, hof]
    | cons t ts =>
        -- The brackets use up at least one of the characters that bound the depth.
        have hlength : (t.chars ++ ts.flatMap fun u => ", ".toList ++ u.chars).length < depth := by
          rw [chars_named_cons] at hdepth
          simp only [List.length_append, List.length_cons] at hdepth ⊢
          omega
        obtain ⟨inside, rfl⟩ : ∃ inside, depth = inside + 1 := ⟨depth - 1, by omega⟩
        rw [singleParser_args hname hwf hs ?_ hrest, hof]
        intro u hu
        have hle := length_chars_le ", ".toList hu
        exact (ih u hu inside (by omega)).1
  have hunify : unify [.named name args] = .named name args :=
    unify_of_named (by simp [isNamed]) (List.pairwise_singleton _ _)
  exact ⟨fun rest => parserAt_of_single (.named hwf) (.named hname hany hs) hunify hsingle,
    fun _ => hsingle⟩

theorem readBack {t : Ty} (h : WellFormed t) (hs : Spelled t) : ReadBack t := by
  induction h with
  | any =>
      intro depth _
      have hsingle : ∀ rest, EndsMember rest →
          singleParser (innerParser depth) (chars .any ++ rest) = some (.any, rest) := by
        intro rest hrest
        rw [chars_any, singleParser_name (by decide) hrest]
        rfl
      exact ⟨fun rest => parserAt_of_single .any .any rfl hsingle, fun _ => hsingle⟩
  | named hwf ih =>
      cases hs with
      | named hname hany hargs =>
          exact readBack_named hwf hname hany hargs fun t ht => ih t ht (hargs t ht)
  | @union members htwo hmax hnamed hwf hpairwise ih =>
      cases hs with
      | union hmembers =>
          intro depth hdepth
          refine ⟨fun rest hrest => ?_, fun h => by simp [isNamed] at h⟩
          cases members with
          | nil => simp at htwo
          | cons t members =>
              cases members with
              | nil => simp at htwo
              | cons u ts =>
                  rw [chars_union_cons] at hdepth ⊢
                  have hjoin : unify (t :: u :: ts) = .union (t :: u :: ts) := by
                    rw [unify_of_named hnamed hpairwise, ofMembers_of_two_le htwo, if_pos hmax]
                  rw [List.append_assoc, parserAt_eq, unionParser_members hwf hmembers ?_ hrest,
                    hjoin]
                  intro v hv
                  have hle := length_chars_le " | ".toList hv
                  exact (ih v hv (hmembers v hv) depth (by omega)).2 (hnamed v hv)

/-! ### Texts -/

theorem dropEndWhile_concat_of_neg {p : Char → Bool} {c : Char} (hc : p c = false)
    (cs : List Char) : dropEndWhile p (cs ++ [c]) = cs ++ [c] := by
  induction cs with
  | nil => simp [dropEndWhile, hc]
  | cons d cs ih =>
      rw [List.cons_append, dropEndWhile_cons, ih, if_neg (by simp)]

/-- Nothing is stripped from a text that starts with a name and does not end with a blank. -/
theorem strip_eq_of_ends {text : List Char}
    (hstart : ∃ c cs, text = c :: cs ∧ isNameStart c = true)
    (hend : ∃ cs c, text = cs ++ [c] ∧ isBlank c = false) : strip text = text := by
  have hfirst : stripStart text = text := by
    obtain ⟨c, cs, rfl, hc⟩ := hstart
    have hblank := isBlank_of_isNameRest (isNameRest_of_isNameStart hc)
    rw [stripStart, List.dropWhile_cons_of_neg (by simp [hblank])]
  have hlast : stripEnd text = text := by
    obtain ⟨cs, c, rfl, hc⟩ := hend
    rw [stripEnd, dropEndWhile_concat_of_neg hc]
  rw [strip, hfirst, hlast]

/-- Nothing is stripped from a written type. -/
theorem strip_chars {t : Ty} (h : WellFormed t) (hs : Spelled t) : strip t.chars = t.chars :=
  strip_eq_of_ends (exists_chars_eq_cons h hs) (exists_chars_eq_concat h hs)

/-- Reading a written type gives the type. -/
theorem ofString_render {t : Ty} (h : WellFormed t) (hs : Spelled t) : ofString t.render = t := by
  have hread := (readBack h hs t.chars.length (Nat.le_refl _)).1 [] (.inl rfl)
  rw [List.append_nil] at hread
  have hparse : parse? t.chars = some t := by
    rw [parse?, parser, hread]
  rw [ofString, parse, ← chars, strip_chars h hs, hparse]
  rfl

end Ty

/-- Reading undoes writing. A type that can be written is read back with its names, arguments and
order of members; every text is read as such a type; so to write what was read and to read it again
changes nothing. -/
theorem types_read_back :
    (∀ t : Ty, t.WellFormed → t.Spelled → Ty.ofString t.render = t) ∧
    (∀ s : String, (Ty.ofString s).WellFormed ∧ (Ty.ofString s).Spelled) ∧
    ∀ s : String, Ty.ofString (Ty.ofString s).render = Ty.ofString s :=
  ⟨fun _ => Ty.ofString_render, fun s => ⟨.ofString s, .ofString s⟩,
    fun s => Ty.ofString_render (.ofString s) (.ofString s)⟩

/-- An optional array in a map: unions at two depths, each in an order that reading has to keep. -/
theorem types_read_back_map :
    let element : Ty := .union [.simple "String", .simple "Int"]
    let t : Ty := .named "Map" [.simple "_key0", .union [.array element, .simple "Nil"]]
    t.render = "Map<_key0, Array<String | Int> | Nil>" ∧ Ty.ofString t.render = t := by
  intro element t
  have hsimple (name : String) (h : Ty.isTypeName name.toList = true) (hany : name ≠ "Any") :
      (Ty.simple name).Spelled := .named h hany (by simp)
  have helement : element.WellFormed ∧ element.Spelled := by
    refine ⟨.union (by decide) (by decide) (by simp [Ty.isNamed]) ?_ ?_, .union ?_⟩
    · simpa using ⟨Ty.WellFormed.simple "String", Ty.WellFormed.simple "Int"⟩
    · simp [Ty.same]
    · simpa using ⟨hsimple "String" (by decide) (by decide), hsimple "Int" (by decide) (by decide)⟩
  have harray : (Ty.array element).Spelled :=
    .named (by decide) (by decide) (by simpa using helement.2)
  have hwf : t.WellFormed := by
    refine .named ?_
    simp only [List.forall_mem_cons, List.not_mem_nil, false_implies, implies_true, and_true]
    refine ⟨.simple _, .union (by decide) (by decide) (by simp [Ty.isNamed]) ?_ ?_⟩
    · simpa using ⟨helement.1.array, Ty.WellFormed.simple "Nil"⟩
    · simp [Ty.same]
  have hspelled : t.Spelled := by
    refine .named (by decide) (by decide) ?_
    simp only [List.forall_mem_cons, List.not_mem_nil, false_implies, implies_true, and_true]
    refine ⟨hsimple _ (by decide) (by decide), .union ?_⟩
    simpa using ⟨harray, hsimple "Nil" (by decide) (by decide)⟩
  exact ⟨by decide, types_read_back.1 t hwf hspelled⟩

end Polyloft
