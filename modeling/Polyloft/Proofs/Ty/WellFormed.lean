import Polyloft.Catalog

/-!
# Polyloft.Proofs.Ty.WellFormed

The types that are ever built: `Any`, a named type with well-formed arguments, or a union of two or
three named types no two of which are the same. Joining, reading, indexing and substitution all
stay among them, so that a value of a union type always has a named type.

## Proof shape

Every union is made by `Ty.unify`. Taking unions apart leaves named types only, unless one of the
joined types is `Any` (`named_of_mem_distinct`), and adding a type to the members found so far keeps
them apart (`pairwise_distinct`); that is `WellFormed.unify`. The parser and substitution go through
`unify`, and recursion does the rest.
-/

namespace Polyloft

theorem mem_of_lookup_eq_some {α β : Type} [BEq α] [LawfulBEq α] {entries : List (α × β)} {key : α}
    {value : β} (h : entries.lookup key = some value) : (key, value) ∈ entries := by
  obtain ⟨before, after, rfl, -⟩ := List.lookup_eq_some_iff.1 h
  simp

namespace Ty

/-- A type with a name. -/
def isNamed : Ty → Bool
  | .named _ _ => true
  | _ => false

/-- The types that inference works with: a union has two or three members, all of them named and no
two of them the same. -/
inductive WellFormed : Ty → Prop where
  | any : WellFormed .any
  | named {name : String} {args : List Ty} (hargs : ∀ t ∈ args, WellFormed t) :
      WellFormed (.named name args)
  | union {members : List Ty} (htwo : 2 ≤ members.length) (hmax : members.length ≤ maxMembers)
      (hnamed : ∀ t ∈ members, t.isNamed = true) (hmembers : ∀ t ∈ members, WellFormed t)
      (hpairwise : members.Pairwise fun s t => same s t = false) : WellFormed (.union members)

theorem WellFormed.simple (name : String) : WellFormed (.simple name) :=
  .named (by simp)

theorem WellFormed.array {t : Ty} (h : WellFormed t) : WellFormed (.array t) :=
  .named (by simpa using h)

/-- The alternatives of a type have names. -/
theorem WellFormed.named_of_mem_alternatives {t s : Ty} (h : WellFormed t)
    (hs : s ∈ t.alternatives) : s.isNamed = true ∧ WellFormed s := by
  cases h with
  | any => simp [alternatives] at hs
  | named hargs =>
      rw [alternatives, List.mem_singleton] at hs
      subst hs
      exact ⟨rfl, .named hargs⟩
  | union _ _ hnamed hmembers _ => exact ⟨hnamed s hs, hmembers s hs⟩

/-! ### Joining -/

theorem mem_addMember {found : List Ty} {s t : Ty} (h : s ∈ addMember found t) :
    s ∈ found ∨ s = t := by
  unfold addMember at h
  split at h
  · exact .inl h
  · simpa using h

theorem mem_of_mem_foldl_addMember {ts found : List Ty} {s : Ty}
    (h : s ∈ ts.foldl addMember found) : s ∈ found ∨ s ∈ ts := by
  induction ts generalizing found with
  | nil => exact .inl h
  | cons t ts ih =>
      rcases ih h with hfound | hts
      · rcases mem_addMember hfound with hs | rfl
        · exact .inl hs
        · exact .inr (List.mem_cons_self ..)
      · exact .inr (List.mem_cons_of_mem _ hts)

theorem distinct_subset (ts : List Ty) : distinct ts ⊆ ts.flatMap flatten := by
  intro s hs
  rcases mem_of_mem_foldl_addMember hs with hnil | hs
  · simp at hnil
  · exact hs

theorem sameAny_iff {found : List Ty} {t : Ty} :
    sameAny found t = true ↔ ∃ s ∈ found, same s t = true := by
  induction found with
  | nil => simp [sameAny]
  | cons s found ih => simp [sameAny, ih]

theorem sameAny_eq_false_iff {found : List Ty} {t : Ty} :
    sameAny found t = false ↔ ∀ s ∈ found, same s t = false := by
  rw [Bool.eq_false_iff, Ne, sameAny_iff]
  simp

theorem pairwise_addMember {found : List Ty} (t : Ty)
    (h : found.Pairwise fun s t => same s t = false) :
    (addMember found t).Pairwise fun s t => same s t = false := by
  unfold addMember
  split
  · exact h
  · rename_i hnew
    rw [List.pairwise_append]
    refine ⟨h, List.pairwise_singleton _ _, ?_⟩
    intro s hs u hu
    rw [List.mem_singleton] at hu
    subst hu
    exact sameAny_eq_false_iff.1 (by simpa using hnew) s hs

theorem pairwise_distinct (ts : List Ty) :
    (distinct ts).Pairwise fun s t => same s t = false := by
  unfold distinct
  refine List.foldlRecOn _ addMember List.Pairwise.nil ?_
  intro found hfound t _
  exact pairwise_addMember t hfound

/-- What a union of well-formed types is made of, unless one of them is `Any`. -/
theorem named_of_mem_distinct {ts : List Ty} (h : ∀ t ∈ ts, WellFormed t)
    (hany : ts.any isAny = false) {s : Ty} (hs : s ∈ distinct ts) :
    s.isNamed = true ∧ WellFormed s := by
  obtain ⟨t, ht, hst⟩ := List.mem_flatMap.1 (distinct_subset ts hs)
  have hwf := h t ht
  have hnot : isAny t = false := List.any_eq_false.1 hany t ht |> (by simpa using ·)
  cases hwf with
  | any => simp [isAny] at hnot
  | named hargs =>
      rw [flatten, List.mem_singleton] at hst
      · subst hst
        exact ⟨rfl, .named hargs⟩
      · simp
  | union _ _ hnamed hmembers _ => exact ⟨hnamed s hst, hmembers s hst⟩

theorem WellFormed.ofMembers {ts : List Ty} (hnamed : ∀ t ∈ ts, t.isNamed = true)
    (hmembers : ∀ t ∈ ts, WellFormed t) (hpairwise : ts.Pairwise fun s t => same s t = false) :
    WellFormed (ofMembers ts) := by
  unfold Ty.ofMembers
  split
  · exact .simple _
  · exact hmembers _ (by simp)
  · rename_i hnil hone
    split
    · rename_i hle
      refine .union ?_ hle hnamed hmembers hpairwise
      match ts, hnil, hone with
      | _ :: _ :: _, _, _ => simp
      | [], hnil, _ => exact absurd rfl hnil
      | [t], _, hone => exact absurd rfl (hone t)
    · exact .any

/-- The join of well-formed types is well formed. -/
theorem WellFormed.unify {ts : List Ty} (h : ∀ t ∈ ts, WellFormed t) : WellFormed (unify ts) := by
  unfold Ty.unify
  split
  · exact .any
  · rename_i hany
    have hany : ts.any isAny = false := by simpa using hany
    exact .ofMembers (fun s hs => (named_of_mem_distinct h hany hs).1)
      (fun s hs => (named_of_mem_distinct h hany hs).2) (pairwise_distinct ts)

/-! ### Elements and substitution -/

theorem WellFormed.arg {args : List Ty} (h : ∀ t ∈ args, WellFormed t) (index : Nat) :
    WellFormed (arg args index) := by
  rw [Ty.arg, List.getD_eq_getElem?_getD]
  cases hget : args[index]? with
  | none => exact .any
  | some t => exact h t (List.mem_of_getElem? hget)

theorem WellFormed.element {t : Ty} (h : WellFormed t) : WellFormed t.element := by
  cases h with
  | any => exact .any
  | union => exact .any
  | named hargs =>
      simp only [Ty.element]
      repeat' split
      · exact .arg hargs 0
      · exact .arg hargs 1
      · exact .simple _
      · exact .simple _
      · exact .any

theorem WellFormed.iteration {t : Ty} (h : WellFormed t) : WellFormed t.iteration := by
  unfold Ty.iteration
  split
  · cases h with
    | named hargs => exact .arg hargs 0
  · exact h.element

theorem mem_substituteAll {bindings : List (String × Ty)} {ts : List Ty} {s : Ty}
    (h : s ∈ substituteAll bindings ts) : ∃ t ∈ ts, s = substitute bindings t := by
  induction ts with
  | nil => simp [substituteAll] at h
  | cons t ts ih =>
      rw [substituteAll, List.mem_cons] at h
      rcases h with rfl | h
      · exact ⟨t, by simp, rfl⟩
      · obtain ⟨u, hu, rfl⟩ := ih h
        exact ⟨u, List.mem_cons_of_mem _ hu, rfl⟩

/-- Substitution keeps types well formed, also where a member of a union is replaced by a union or
by `Any`. -/
theorem WellFormed.substitute {bindings : List (String × Ty)}
    (hb : ∀ b ∈ bindings, WellFormed b.2) {t : Ty} (h : WellFormed t) :
    WellFormed (t.substitute bindings) := by
  induction h with
  | any =>
      rw [Ty.substitute]
      exact .any
  | @named name args _ ih =>
      cases args with
      | nil =>
          rw [Ty.substitute]
          cases hlookup : bindings.lookup name with
          | none => exact .simple name
          | some t => exact hb _ (mem_of_lookup_eq_some hlookup)
      | cons a as =>
          rw [Ty.substitute]
          refine .named ?_
          intro s hs
          obtain ⟨t, ht, rfl⟩ := mem_substituteAll hs
          exact ih t ht
  | union _ _ _ _ _ ih =>
      rw [Ty.substitute]
      refine .unify ?_
      intro s hs
      obtain ⟨t, ht, rfl⟩ := mem_substituteAll hs
      exact ih t ht

end Ty

/-! ### Reading -/

namespace Parser

variable {α : Type} {P : α → Prop}

/-- Everything the parser reads satisfies `P`. -/
def Yields (p : Parser α) (P : α → Prop) : Prop :=
  ∀ cs a rest, p cs = some (a, rest) → P a

theorem Yields.many {p : Parser α} (hp : p.Yields P) (cs : List Char) :
    ∀ a ∈ (many p cs).1, P a := by
  fun_induction Parser.many p cs with
  | case1 => simp
  | case2 cs a rest hread hlt more ih =>
      intro b hb
      rcases List.mem_cons.1 hb with rfl | hb
      · exact hp _ _ _ hread
      · exact ih b hb
  | case3 => simp

theorem Yields.after {p : Parser α} (hp : p.Yields P) (sep : Char) : (after sep p).Yields P := by
  intro cs a rest h
  obtain ⟨r, -, hr⟩ := Option.bind_eq_some_iff.1 h
  exact hp _ _ _ hr

theorem Yields.sepBy {p : Parser α} (hp : p.Yields P) (sep : Char) :
    (sepBy sep p).Yields fun as => ∀ a ∈ as, P a := by
  intro cs as rest h
  obtain ⟨⟨a, more⟩, ha, heq⟩ := Option.map_eq_some_iff.1 h
  obtain ⟨rfl, -⟩ := Prod.mk.inj heq
  intro b hb
  rcases List.mem_cons.1 hb with rfl | hb
  · exact hp _ _ _ ha
  · exact (hp.after sep).many _ b hb

end Parser

namespace Ty

open Polyloft.Parser

theorem WellFormed.ofName (name : String) {args : List Ty} (h : ∀ t ∈ args, WellFormed t) :
    WellFormed (ofName name args) := by
  unfold Ty.ofName
  split
  · exact .any
  · exact .named h

/-- A name of a type: a letter or underscore of ASCII, and letters, digits and underscores. -/
def isTypeName : List Char → Bool
  | [] => false
  | c :: cs => Text.isNameStart c && cs.all isNameRest

theorem isTypeName_of_name {cs rest : List Char} {name : String}
    (h : Parser.name cs = some (name, rest)) : isTypeName name.toList = true := by
  cases cs with
  | nil => simp [Parser.name] at h
  | cons c cs =>
      rw [Parser.name] at h
      split at h
      · rename_i hstart
        obtain ⟨rfl, -⟩ := Prod.mk.inj (Option.some.inj h)
        simp [isTypeName, hstart, List.all_takeWhile]
      · simp at h

theorem yields_bracketParser {P : Ty → Prop} {inner : Parser Ty} (h : inner.Yields P)
    (opening closing : Char) :
    (bracketParser opening closing inner).Yields fun ts => ∀ t ∈ ts, P t := by
  intro cs ts rest hread
  obtain ⟨r, -, hread⟩ := Option.bind_eq_some_iff.1 hread
  obtain ⟨args, hargs, hread⟩ := Option.bind_eq_some_iff.1 hread
  obtain ⟨r', -, heq⟩ := Option.map_eq_some_iff.1 hread
  obtain ⟨rfl, -⟩ := Prod.mk.inj heq
  exact h.sepBy ',' _ _ _ hargs

theorem yields_argsParser {P : Ty → Prop} {inner : Parser Ty} (h : inner.Yields P) :
    (argsParser inner).Yields fun ts => ∀ t ∈ ts, P t := by
  intro cs ts rest hread
  rcases Option.or_eq_some_iff.1 hread with hread | ⟨-, hread⟩
  · exact yields_bracketParser h _ _ _ _ _ hread
  · exact yields_bracketParser h _ _ _ _ _ hread

section

variable {P : Ty → Prop}
  (hname : ∀ name args, isTypeName name.toList = true → (∀ t ∈ args, P t) → P (ofName name args))
  (hunify : ∀ ts, (∀ t ∈ ts, P t) → P (unify ts))
include hname

theorem yields_singleParser {inner : Parser Ty} (h : inner.Yields P) :
    (singleParser inner).Yields P := by
  intro cs t rest hread
  obtain ⟨⟨name, behind⟩, hspelled, heq⟩ := Option.map_eq_some_iff.1 hread
  dsimp only at heq
  -- A question mark behind the type does not count.
  cases hargs : argsParser inner (gap behind) with
  | some args =>
      have ht : Ty.ofName name args.1 = t := by
        rw [hargs] at heq
        dsimp only at heq
        split at heq <;> exact congrArg Prod.fst heq
      rw [← ht]
      exact hname name _ (isTypeName_of_name hspelled) (yields_argsParser h _ _ _ hargs)
  | none =>
      have ht : Ty.ofName name [] = t := by
        rw [hargs] at heq
        dsimp only at heq
        split at heq <;> exact congrArg Prod.fst heq
      rw [← ht]
      exact hname name _ (isTypeName_of_name hspelled) (by simp)

include hunify

theorem yields_unionParser {inner : Parser Ty} (h : inner.Yields P) :
    (unionParser inner).Yields P := by
  intro cs t rest hread
  obtain ⟨r, hr, heq⟩ := Option.map_eq_some_iff.1 hread
  obtain ⟨rfl, -⟩ := Prod.mk.inj heq
  exact hunify _ ((yields_singleParser hname h).sepBy '|' _ _ _ hr)

theorem yields_parserAt (depth : Nat) : (parserAt depth).Yields P := by
  induction depth with
  | zero => exact yields_unionParser hname hunify (by intro _ _ _ h; simp at h)
  | succ depth ih => exact yields_unionParser hname hunify ih

/-- What holds of names with arguments and of joins holds of every type that is read. -/
theorem parser_yields : parser.Yields P := by
  intro cs
  exact yields_parserAt hname hunify cs.length cs

/-- What holds also of `Any` holds of whatever a text is read as. -/
theorem of_ofString (hany : P .any) (s : String) : P (ofString s) := by
  unfold Ty.ofString parse
  cases hread : parse? (Text.strip s.toList) with
  | none => exact hany
  | some t =>
      unfold parse? at hread
      split at hread
      · rename_i t' hparser
        obtain rfl := Option.some.inj hread
        exact parser_yields hname hunify _ _ _ hparser
      · simp at hread

end

theorem yields_wellFormed : parser.Yields WellFormed :=
  parser_yields (fun name _ _ h => .ofName name h) fun _ h => .unify h

/-- Every text is read as a well-formed type. -/
theorem WellFormed.ofString (s : String) : WellFormed (ofString s) :=
  of_ofString (fun name _ _ h => .ofName name h) (fun _ h => .unify h) .any s

end Ty

/-! ### Parameters and the catalog -/

theorem Parameter.wellFormed_of_parseGrammar? {cs : List Char} {p : Parameter}
    (h : parseGrammar? cs = some p) : p.type.WellFormed := by
  obtain ⟨name, -, h⟩ := Option.bind_eq_some_iff.1 h
  dsimp only at h
  split at h
  · obtain rfl := Option.some.inj h
    dsimp only
    generalize Parser.gap _ = start
    unfold optionally
    cases hread : annotationParser start with
    | none => exact .any
    | some r =>
        obtain ⟨c, -, hread⟩ := Option.bind_eq_some_iff.1 hread
        obtain ⟨t, ht, heq⟩ := Option.map_eq_some_iff.1 hread
        subst heq
        exact Ty.yields_wellFormed _ _ _ ht
  · simp at h

/-- The type of a parameter is well formed, also where only its name could be made out. -/
theorem Parameter.wellFormed_of_mem_parseList {cs : List Char} {column : Nat} {p : Parameter}
    (h : p ∈ parseList cs column) : p.type.WellFormed := by
  obtain ⟨piece, -, hp⟩ := List.mem_filterMap.1 h
  obtain ⟨q, hq, rfl⟩ := Option.map_eq_some_iff.1 hp
  rcases Option.or_eq_some_iff.1 hq with hq | ⟨-, hq⟩
  · have hwf := wellFormed_of_parseGrammar? hq
    exact hwf
  · unfold recover? at hq
    dsimp only at hq
    split at hq
    · obtain rfl := Option.some.inj hq
      exact .any
    · simp at hq

/-- The type of a method of a built-in type. -/
theorem Catalog.wellFormed_methodType? {catalog : Catalog} {receiver t : Ty} {method : String}
    (hreceiver : receiver.WellFormed) (h : catalog.methodType? receiver method = some t) :
    t.WellFormed := by
  unfold Catalog.methodType? at h
  cases hreceiver with
  | any => simp at h
  | union => simp at h
  | named hargs =>
      obtain ⟨type, -, h⟩ := Option.bind_eq_some_iff.1 h
      obtain ⟨f, -, rfl⟩ := Option.map_eq_some_iff.1 h
      refine .substitute ?_ (.ofString f.returns)
      intro b hb
      rw [CatalogType.bindings, List.mem_reverse, List.mem_mapIdx] at hb
      obtain ⟨i, _, rfl⟩ := hb
      exact .arg hargs i

end Polyloft
