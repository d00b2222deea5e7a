import Polyloft.Proofs.Ty.Join

/-!
# Polyloft.Proofs.Ty.Assignable

Which values can be stored where. `assignable` cannot tell apart types that are the same, and the
join of some types is the least type that all of them can be assigned to; it says nothing less than
they do unless it has been given up. So a function that is given the join of what it returns accepts
each of its returns, and everything that accepts the function accepts them.

`Any` is assignable to everything and everything to `Any`, and missing arguments are compared with
nothing, so assignability as such is not transitive. It is where the type in the middle has no `Any`
and as many arguments as its names ask for (`FullyApplied`).

## Proof shape

A source is assignable if all of its members are, a target accepts what one of its members accepts
(`assignable_iff_flatten`, `assignable_flatten_iff`), and arguments are compared place by place
(`assignableArgs_iff`). Inductions are on the source, and where that is a name also on the target.
-/

namespace Polyloft.Ty

/-! ### Readings of assignability -/

@[simp]
theorem assignable_any_left (t : Ty) : assignable .any t = true := by
  rw [assignable]

@[simp]
theorem assignable_any_right (s : Ty) : assignable s .any = true := by
  cases s <;> simp [assignable]

theorem assignableAll_iff {sources : List Ty} {t : Ty} :
    assignableAll sources t = true ↔ ∀ s ∈ sources, assignable s t = true := by
  induction sources with
  | nil => simp [assignableAll]
  | cons s sources ih => rw [assignableAll, Bool.and_eq_true, ih, List.forall_mem_cons]

theorem assignableAny_iff {s : Ty} {targets : List Ty} :
    assignableAny s targets = true ↔ ∃ t ∈ targets, assignable s t = true := by
  induction targets with
  | nil => simp [assignableAny]
  | cons t targets ih => rw [assignableAny, Bool.or_eq_true, ih, List.exists_mem_cons_iff]

/-- Arguments are compared at the places that both lists have. -/
theorem assignableArgs_iff {sources targets : List Ty} :
    assignableArgs sources targets = true ↔
      ∀ (i : Nat) (s t : Ty), sources[i]? = some s → targets[i]? = some t →
        assignable s t = true := by
  induction sources generalizing targets with
  | nil => simp [assignableArgs]
  | cons s sources ih =>
      cases targets with
      | nil => simp [assignableArgs]
      | cons t targets =>
          rw [assignableArgs, Bool.and_eq_true, ih]
          constructor
          · rintro ⟨hfirst, hrest⟩ i u v hu hv
            cases i with
            | zero =>
                obtain rfl := Option.some.inj hu
                obtain rfl := Option.some.inj hv
                exact hfirst
            | succ i => exact hrest i u v hu hv
          · intro h
            exact ⟨h 0 s t rfl rfl, fun i => h (i + 1)⟩

theorem assignable_union_left_iff {members : List Ty} {t : Ty} :
    assignable (.union members) t = true ↔ ∀ s ∈ members, assignable s t = true := by
  cases t with
  | any => simp
  | named | union =>
      rw [assignable, assignableAll_iff]
      simp

theorem assignable_union_right_iff {s : Ty} (hs : s.isNamed = true) {members : List Ty} :
    assignable s (.union members) = true ↔ ∃ t ∈ members, assignable s t = true := by
  cases s with
  | named name args => rw [assignable, assignableAny_iff]
  | any | union => simp [isNamed] at hs

@[simp]
theorem widens_self (name : String) : widens name name = false := by
  by_cases h : name = "Int" <;> simp [widens, h]

/-- A name accepts itself with arguments that its own accept, and a wider name anything. -/
theorem assignable_named_iff {name name' : String} {args args' : List Ty} :
    assignable (.named name args) (.named name' args') = true ↔
      name = name' ∧ assignableArgs args args' = true ∨ widens name name' = true := by
  rw [assignable]
  by_cases h : name = name'
  · subst h
    simp
  · simp [h]

theorem assignable_iff_flatten {s t : Ty} :
    assignable s t = true ↔ ∀ u ∈ flatten s, assignable u t = true := by
  cases s with
  | any | named => simp [flatten]
  | union members => exact assignable_union_left_iff

theorem assignable_flatten_iff {s t : Ty} (hs : s.isNamed = true) :
    assignable s t = true ↔ ∃ u ∈ flatten t, assignable s u = true := by
  cases t with
  | any | named => simp [flatten]
  | union members => exact assignable_union_right_iff hs

/-! ### Reflexivity and equality -/

theorem assignable_refl {t : Ty} (h : WellFormed t) : assignable t t = true := by
  induction h with
  | any => simp
  | @named name args _ ih =>
      refine assignable_named_iff.2 (.inl ⟨rfl, assignableArgs_iff.2 ?_⟩)
      intro i s t hs ht
      obtain rfl := Option.some.inj (hs.symm.trans ht)
      exact ih s (List.mem_of_getElem? hs)
  | union _ _ hnamed _ _ ih =>
      refine assignable_union_left_iff.2 fun s hs => ?_
      exact (assignable_union_right_iff (hnamed s hs)).2 ⟨s, hs, ih s hs⟩

theorem exists_getElem?_of_forall₂ {α β : Type} {R : α → β → Prop} {as : List α} {bs : List β}
    (h : List.Forall₂ R as bs) {i : Nat} {b : β} (hb : bs[i]? = some b) :
    ∃ a, as[i]? = some a ∧ R a b := by
  induction h generalizing i with
  | nil => simp at hb
  | cons hab _ ih =>
      cases i with
      | zero =>
          obtain rfl := Option.some.inj hb
          exact ⟨_, rfl, hab⟩
      | succ i => exact ih hb

/-- What is the same can be exchanged on both sides. -/
theorem assignable_of_same {s s' t t' : Ty} (hs : same s s' = true) (ht : same t t' = true)
    (h : assignable s t = true) : assignable s' t' = true := by
  induction s generalizing s' t t' with
  | any =>
      obtain rfl := same_any_iff.1 hs
      exact assignable_any_left t'
  | union sources ih =>
      obtain ⟨sources', rfl, -, hfrom⟩ := exists_union_of_same hs
      refine assignable_union_left_iff.2 fun s' hs' => ?_
      obtain ⟨s, hs, hss'⟩ := hfrom s' hs'
      exact ih s hs hss' ht (assignable_union_left_iff.1 h s hs)
  | named name args ih =>
      obtain ⟨args', rfl, hargs⟩ := exists_named_of_same hs
      induction t generalizing t' with
      | any =>
          obtain rfl := same_any_iff.1 ht
          exact assignable_any_right _
      | union targets iht =>
          obtain ⟨targets', rfl, hto, -⟩ := exists_union_of_same ht
          obtain ⟨t, htmem, hst⟩ := (assignable_union_right_iff rfl).1 h
          obtain ⟨t', ht', htt'⟩ := hto t htmem
          exact (assignable_union_right_iff rfl).2 ⟨t', ht', iht t htmem htt' hst⟩
      | named name' targets _ =>
          obtain ⟨targets', rfl, htargets⟩ := exists_named_of_same ht
          rcases assignable_named_iff.1 h with ⟨rfl, hall⟩ | hwide
          · refine assignable_named_iff.2 (.inl ⟨rfl, assignableArgs_iff.2 ?_⟩)
            intro i s' t' hs' ht'
            obtain ⟨s, hs, hss'⟩ := exists_getElem?_of_forall₂ hargs hs'
            obtain ⟨t, ht, htt'⟩ := exists_getElem?_of_forall₂ htargets ht'
            exact ih s (List.mem_of_getElem? hs) hss' htt' (assignableArgs_iff.1 hall i s t hs ht)
          · exact assignable_named_iff.2 (.inr hwide)

theorem assignable_congr {s s' t t' : Ty} (hs : same s s' = true) (ht : same t t' = true) :
    assignable s t = assignable s' t' :=
  Bool.eq_iff_iff.2
    ⟨assignable_of_same hs ht, assignable_of_same (same_symm hs) (same_symm ht)⟩

/-! ### Joins as bounds -/

section

variable {ts : List Ty} (hwf : ∀ t ∈ ts, WellFormed t) (hne : ts ≠ [])
include hwf hne

theorem assignable_unify {t : Ty} (ht : t ∈ ts) : assignable t (unify ts) = true := by
  by_cases hany : unify ts = .any
  · rw [hany]
    exact assignable_any_right t
  refine assignable_iff_flatten.2 fun s hs => ?_
  obtain ⟨m, hm, hsm⟩ := within_distinct ts s (List.mem_flatMap.2 ⟨t, ht, hs⟩)
  obtain ⟨hnamed, hmwf⟩ := named_of_mem_distinct_of_unify hwf hany hm
  -- A target is read for names only, so the way leads over the member that stands for `s`.
  have hmember : assignable m (unify ts) = true := by
    rw [assignable_flatten_iff hnamed, flatten_unify hwf hne hany]
    exact ⟨m, hm, assignable_refl hmwf⟩
  exact assignable_of_same (same_symm hsm) (same_refl _) hmember

theorem unify_assignable {u : Ty} (h : ∀ t ∈ ts, assignable t u = true) :
    assignable (unify ts) u = true := by
  by_cases hany : unify ts = .any
  · rw [hany]
    exact assignable_any_left u
  rw [assignable_iff_flatten, flatten_unify hwf hne hany]
  intro m hm
  obtain ⟨t, ht, hmt⟩ := List.mem_flatMap.1 (distinct_subset ts hm)
  exact assignable_iff_flatten.1 (h t ht) m hmt

theorem assignable_of_unify_assignable (hany : unify ts ≠ .any) {u : Ty}
    (h : assignable (unify ts) u = true) {t : Ty} (ht : t ∈ ts) : assignable t u = true := by
  rw [assignable_iff_flatten, flatten_unify hwf hne hany] at h
  refine assignable_iff_flatten.2 fun s hs => ?_
  obtain ⟨m, hm, hsm⟩ := within_distinct ts s (List.mem_flatMap.2 ⟨t, ht, hs⟩)
  exact assignable_of_same (same_symm hsm) (same_refl u) (h m hm)

end

/-- The join of some types is the least type that they can all be assigned to. A well-formed type is
assignable to itself, and types that are the same can be exchanged on both sides. Each of the joined
types is assignable to the join, and the join to everything that accepts each of them. The other way
round, what accepts the join accepts each of them, unless the join is `Any`. -/
theorem join_is_least_bound :
    (∀ t : Ty, WellFormed t → assignable t t = true) ∧
    (∀ s s' t t' : Ty, same s s' = true → same t t' = true →
      assignable s t = assignable s' t') ∧
    ∀ ts : List Ty, (∀ t ∈ ts, WellFormed t) → ts ≠ [] →
      (∀ t ∈ ts, assignable t (unify ts) = true) ∧
      ∀ u : Ty, ((∀ t ∈ ts, assignable t u = true) → assignable (unify ts) u = true) ∧
        (unify ts ≠ .any → assignable (unify ts) u = true → ∀ t ∈ ts, assignable t u = true) := by
  refine ⟨fun _ => assignable_refl, fun _ _ _ _ => assignable_congr, fun ts hwf hne => ?_⟩
  refine ⟨fun t => assignable_unify hwf hne, fun u => ⟨unify_assignable hwf hne, ?_⟩⟩
  intro hany h t ht
  exact assignable_of_unify_assignable hwf hne hany h ht

/-- Returns of two spellings of one array and of a number: all of them fit their join, and as it is
not given up, they fit what it fits. -/
theorem join_is_least_bound_returns :
    let ts : List Ty := [.array (.union [int, string]), int, .array (.union [string, int])]
    let u : Ty := .union [float, .array (.union [bool, string, float])]
    unify ts = .union [.array (.union [int, string]), int] ∧
    assignable (unify ts) u = true ∧ ∀ t ∈ ts, assignable t (unify ts) = true ∧
      assignable t u = true := by
  intro ts u
  have hwf : ∀ t ∈ ts, WellFormed t := by
    have heither : WellFormed (.union [int, string]) := .pair (by decide)
    have hreversed : WellFormed (.union [string, int]) := .pair (by decide)
    simpa [ts] using ⟨heither.array, WellFormed.simple "Int", hreversed.array⟩
  have hjoin : unify ts = .union [.array (.union [int, string]), int] := by cbv
  have hfits : assignable (unify ts) u = true := by cbv
  obtain ⟨hupper, hleast⟩ := join_is_least_bound.2.2 ts hwf (by simp [ts])
  refine ⟨hjoin, hfits, fun t ht => ⟨hupper t ht, (hleast u).2 ?_ hfits t ht⟩⟩
  simp [hjoin]

/-! ### Transitivity -/

/-- A type without `Any` in which every name has as many arguments as `arity` says. -/
inductive FullyApplied (arity : String → Nat) : Ty → Prop where
  | named {name : String} {args : List Ty} (hlength : args.length = arity name)
      (hargs : ∀ t ∈ args, FullyApplied arity t) : FullyApplied arity (.named name args)
  | union {members : List Ty} (hmembers : ∀ t ∈ members, FullyApplied arity t) :
      FullyApplied arity (.union members)

/-- Wider names are not widened again. -/
theorem widens_eq_false_of_widens {name name' name'' : String} (h : widens name name' = true) :
    widens name' name'' = false := by
  simp only [widens, Bool.and_eq_true, Bool.or_eq_true, beq_iff_eq] at h
  rcases h.2 with rfl | rfl
  · rfl
  · rfl

theorem assignableArgs_trans {as bs cs : List Ty} (hlength : as.length = bs.length)
    (htrans : ∀ a ∈ as, ∀ b ∈ bs, ∀ c ∈ cs, assignable a b = true → assignable b c = true →
      assignable a c = true)
    (hab : assignableArgs as bs = true) (hbc : assignableArgs bs cs = true) :
    assignableArgs as cs = true := by
  rw [assignableArgs_iff] at hab hbc ⊢
  intro i a c ha hc
  -- The lists in front and in the middle have the same places.
  have hi : i < bs.length := by
    rw [← hlength]
    exact (List.getElem?_eq_some_iff.1 ha).1
  have hb : bs[i]? = some bs[i] := List.getElem?_eq_getElem hi
  exact htrans a (List.mem_of_getElem? ha) bs[i] (List.getElem_mem hi) c (List.mem_of_getElem? hc)
    (hab i a bs[i] ha hb) (hbc i bs[i] c hb hc)

/-- Names in a row: at most one of the two steps is a widening, and the other one keeps the name. -/
theorem assignable_named_trans {name name' name'' : String} {as bs cs : List Ty}
    (hargs : name = name' → assignableArgs as bs = true → assignableArgs bs cs = true →
      assignableArgs as cs = true)
    (hab : assignable (.named name as) (.named name' bs) = true)
    (hbc : assignable (.named name' bs) (.named name'' cs) = true) :
    assignable (.named name as) (.named name'' cs) = true := by
  rcases assignable_named_iff.1 hab with ⟨rfl, habs⟩ | hwide
  · rcases assignable_named_iff.1 hbc with ⟨rfl, hbcs⟩ | hwide
    · exact assignable_named_iff.2 (.inl ⟨rfl, hargs rfl habs hbcs⟩)
    · exact assignable_named_iff.2 (.inr hwide)
  · rcases assignable_named_iff.1 hbc with ⟨rfl, -⟩ | hagain
    · exact assignable_named_iff.2 (.inr hwide)
    · rw [widens_eq_false_of_widens hwide] at hagain
      simp at hagain

/-- Assignability is transitive through types that are fully applied. Nothing needs to be known of
the last type. -/
theorem assignability_is_transitive {arity : String → Nat} {a b c : Ty}
    (ha : FullyApplied arity a) (hb : FullyApplied arity b) (hab : assignable a b = true)
    (hbc : assignable b c = true) : assignable a c = true := by
  -- On the first type, for a name also on the second, and for two names also on the last.
  induction a generalizing b c with
  | any => cases ha
  | union sources ih =>
      cases ha with
      | union hsources =>
          refine assignable_union_left_iff.2 fun s hs => ?_
          exact ih s hs (hsources s hs) hb (assignable_union_left_iff.1 hab s hs) hbc
  | named name as ih =>
      obtain ⟨hlength, hargs⟩ := ha
      induction b generalizing c with
      | any => cases hb
      | union middles ihb =>
          cases hb with
          | union hmiddles =>
              obtain ⟨m, hm, ham⟩ := (assignable_union_right_iff rfl).1 hab
              exact ihb m hm (hmiddles m hm) ham (assignable_union_left_iff.1 hbc m hm)
      | named name' bs _ =>
          obtain ⟨hlength', hargs'⟩ := hb
          induction c with
          | any => exact assignable_any_right _
          | union targets ihc =>
              obtain ⟨t, ht, hbt⟩ := (assignable_union_right_iff rfl).1 hbc
              exact (assignable_union_right_iff rfl).2 ⟨t, ht, ihc t ht hbt⟩
          | named name'' cs _ =>
              refine assignable_named_trans (fun hname => ?_) hab hbc
              subst hname
              refine assignableArgs_trans (hlength.trans hlength'.symm) ?_
              intro a ha b hb c _ hab hbc
              exact ih a ha (hargs a ha) (hargs' b hb) hab hbc

/-- Through a union, with a widening deep inside of it and the members in another order behind. -/
theorem assignability_is_transitive_widened :
    let arity : String → Nat := fun name => if name = "Array" then 1 else 0
    let a : Ty := .array int
    let b : Ty := .union [bool, .array (.union [float, string])]
    let c : Ty := .union [.array (.union [string, bool, float]), bool]
    FullyApplied arity a ∧ FullyApplied arity b ∧ assignable a b = true ∧ assignable b c = true ∧
      assignable a c = true := by
  intro arity a b c
  have hsimple (name : String) (h : arity name = 0) : FullyApplied arity (.simple name) :=
    .named (by simp [h]) (by simp)
  have harray {t : Ty} (h : FullyApplied arity t) : FullyApplied arity (.array t) :=
    .named rfl (by simpa using h)
  have ha : FullyApplied arity a := harray (hsimple "Int" rfl)
  have hb : FullyApplied arity b := by
    have helement : FullyApplied arity (.union [float, string]) :=
      .union (by simpa using ⟨hsimple "Float" rfl, hsimple "String" rfl⟩)
    exact .union (by simpa using ⟨hsimple "Bool" rfl, harray helement⟩)
  have hab : assignable a b = true := by cbv
  have hbc : assignable b c = true := by cbv
  exact ⟨ha, hb, hab, hbc, assignability_is_transitive ha hb hab hbc⟩

/-- Not so through `Any`, or through a name that leaves its arguments out. -/
example : (assignable int .any = true ∧ assignable .any string = true ∧
    assignable int string = false) ∧ assignable (.array int) (.simple "Array") = true ∧
    assignable (.simple "Array") (.array string) = true ∧
    assignable (.array int) (.array string) = false := by
  decide +kernel

end Polyloft.Ty
