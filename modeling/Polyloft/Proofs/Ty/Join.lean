import Polyloft.Proofs.Ty.Same

/-!
# Polyloft.Proofs.Ty.Join

Joins of types. `unify` takes unions apart, drops what it has seen before and gives up beyond three
members, so it is a join up to a bound: the result depends only on which types are joined, not on
how often they come, in which order, or in which groups. Grouping does not matter either where one
of the groups is already too large and has been given up.

## Proof shape

A join is told by its distinct members: it is `Any` if one of the joined types is or if the members
are too many (`unify_eq_any_iff`), and otherwise it has exactly these members (`flatten_unify`). The
distinct members of two lists together are those of the first with the distinct ones of the second
added (`distinct_append`); adding more types never makes them fewer (`length_distinct_le`).
-/

namespace Polyloft.Ty

/-! ### Distinct members -/

theorem within_addMember (found : List Ty) (t : Ty) :
    Within (found ++ [t]) (addMember found t) := by
  unfold addMember
  split
  · rename_i hfound
    intro s hs
    rcases List.mem_append.1 hs with hs | hs
    · exact ⟨s, hs, same_refl s⟩
    · obtain rfl := List.mem_singleton.1 hs
      obtain ⟨u, hu, hus⟩ := sameAny_iff.1 hfound
      exact ⟨u, hu, same_symm hus⟩
  · exact within_of_subset (List.Subset.refl _)

/-- Nothing that is added gets lost, up to repetitions. -/
theorem within_foldl_addMember (found ts : List Ty) :
    Within (found ++ ts) (ts.foldl addMember found) := by
  induction ts generalizing found with
  | nil => simpa using within_of_subset (List.Subset.refl found)
  | cons t ts ih =>
      have hstep : Within (found ++ t :: ts) (addMember found t ++ ts) := by
        intro s hs
        rw [List.append_cons, List.mem_append] at hs
        rcases hs with hs | hs
        · obtain ⟨u, hu, hsu⟩ := within_addMember found t s hs
          exact ⟨u, List.mem_append_left _ hu, hsu⟩
        · exact ⟨s, List.mem_append_right _ hs, same_refl s⟩
      exact hstep.trans (ih (addMember found t))

theorem within_distinct (ts : List Ty) : Within (ts.flatMap flatten) (distinct ts) :=
  within_foldl_addMember [] (ts.flatMap flatten)

/-- Types that are kept apart already are all added. -/
theorem foldl_addMember_of_pairwise {found ts : List Ty}
    (h : (found ++ ts).Pairwise fun s t => same s t = false) :
    ts.foldl addMember found = found ++ ts := by
  induction ts generalizing found with
  | nil => simp
  | cons t ts ih =>
      have hnew : sameAny found t = false := by
        refine sameAny_eq_false_iff.2 fun s hs => ?_
        exact (List.pairwise_append.1 h).2.2 s hs t (List.mem_cons_self ..)
      have hadd : addMember found t = found ++ [t] := by
        rw [addMember, hnew]
        rfl
      rw [List.foldl_cons, hadd, ih (by simpa using h), List.append_assoc]
      rfl

theorem distinct_of_pairwise {ts : List Ty}
    (h : (ts.flatMap flatten).Pairwise fun s t => same s t = false) :
    distinct ts = ts.flatMap flatten :=
  foldl_addMember_of_pairwise (by simpa using h)

/-- To add a list of members after one more has been put behind it is to add that one last: a
repetition within the list is one for everything that the list is added to. -/
theorem foldl_addMember_addMember (found acc : List Ty) (t : Ty) :
    (addMember acc t).foldl addMember found = addMember (acc.foldl addMember found) t := by
  by_cases hacc : sameAny acc t = true
  · obtain ⟨s, hs, hst⟩ := sameAny_iff.1 hacc
    obtain ⟨u, hu, hsu⟩ := within_foldl_addMember found acc s (List.mem_append_right _ hs)
    have hknown : sameAny (acc.foldl addMember found) t = true :=
      sameAny_iff.2 ⟨u, hu, same_trans (same_symm hsu) hst⟩
    rw [addMember, if_pos hacc, addMember, if_pos hknown]
  · rw [addMember, if_neg hacc, List.foldl_append]
    rfl

theorem foldl_addMember_foldl (found acc ts : List Ty) :
    (ts.foldl addMember acc).foldl addMember found =
      ts.foldl addMember (acc.foldl addMember found) := by
  induction ts generalizing acc with
  | nil => rfl
  | cons t ts ih => rw [List.foldl_cons, ih, foldl_addMember_addMember, List.foldl_cons]

/-- Of the types that come second only the distinct ones matter. -/
theorem distinct_append (xs ys : List Ty) :
    distinct (xs ++ ys) = (distinct ys).foldl addMember (distinct xs) := by
  rw [distinct, List.flatMap_append, List.foldl_append, ← distinct, distinct.eq_def ys,
    foldl_addMember_foldl, List.foldl_nil]

theorem within_flatMap_flatten {xs ys : List Ty} (h : Within xs ys) :
    Within (xs.flatMap flatten) (ys.flatMap flatten) := by
  intro s hs
  obtain ⟨x, hx, hsx⟩ := List.mem_flatMap.1 hs
  obtain ⟨y, hy, hxy⟩ := h x hx
  suffices hflat : Within (flatten x) (flatten y) by
    obtain ⟨t, ht, hst⟩ := hflat s hsx
    exact ⟨t, List.mem_flatMap.2 ⟨y, hy, ht⟩, hst⟩
  cases x with
  | any =>
      obtain rfl := same_any_iff.1 hxy
      exact within_of_subset (List.Subset.refl _)
  | named name args =>
      obtain ⟨args', rfl, -⟩ := exists_named_of_same hxy
      intro t ht
      obtain rfl := List.mem_singleton.1 ht
      exact ⟨_, List.mem_singleton_self _, hxy⟩
  | union members =>
      obtain ⟨members', rfl, hmembers, -⟩ := exists_union_of_same hxy
      exact hmembers

theorem within_distinct_of_within {xs ys : List Ty} (h : Within xs ys) :
    Within (distinct xs) (distinct ys) :=
  (within_of_subset (distinct_subset xs)).trans
    ((within_flatMap_flatten h).trans (within_distinct ys))

/-- With more types to join there are not fewer members. -/
theorem length_distinct_le {xs ys : List Ty} (h : Within xs ys) :
    (distinct xs).length ≤ (distinct ys).length :=
  length_le_of_within (pairwise_distinct xs) (within_distinct_of_within h)

/-! ### Joins told by their members -/

theorem isAny_iff {t : Ty} : t.isAny = true ↔ t = .any := by
  cases t <;> simp [isAny]

theorem any_isAny_iff {ts : List Ty} : ts.any isAny = true ↔ .any ∈ ts := by
  simp [List.any_eq_true, isAny_iff]

theorem any_isAny_eq_false_iff {ts : List Ty} : ts.any isAny = false ↔ .any ∉ ts := by
  rw [← Bool.not_eq_true, any_isAny_iff]

theorem unify_of_any_mem {ts : List Ty} (h : .any ∈ ts) : unify ts = .any := by
  rw [unify, if_pos (any_isAny_iff.2 h)]

theorem unify_of_any_not_mem {ts : List Ty} (h : .any ∉ ts) :
    unify ts = ofMembers (distinct ts) := by
  rw [unify, any_isAny_eq_false_iff.2 h]
  rfl

theorem flatten_of_isNamed {t : Ty} (h : t.isNamed = true) : flatten t = [t] := by
  cases t with
  | named name args => rfl
  | any | union => simp [isNamed] at h

theorem flatMap_flatten_of_named {ts : List Ty} (h : ∀ t ∈ ts, t.isNamed = true) :
    ts.flatMap flatten = ts := by
  induction ts with
  | nil => rfl
  | cons t ts ih =>
      rw [List.forall_mem_cons] at h
      rw [List.flatMap_cons, flatten_of_isNamed h.1, ih h.2]
      rfl

theorem ofMembers_of_two_le {ts : List Ty} (h : 2 ≤ ts.length) :
    ofMembers ts = if ts.length ≤ maxMembers then .union ts else .any := by
  match ts, h with
  | t :: u :: ts, _ => rfl

theorem ofMembers_eq_any_iff {ts : List Ty} (hnamed : ∀ t ∈ ts, t.isNamed = true) :
    ofMembers ts = .any ↔ maxMembers < ts.length := by
  cases ts with
  | nil => simp [ofMembers, maxMembers]
  | cons t ts =>
      cases ts with
      | nil =>
          have ht := hnamed t (List.mem_singleton_self t)
          cases t with
          | named name args => simp [ofMembers, maxMembers]
          | any | union => simp [isNamed] at ht
      | cons u ts =>
          rw [ofMembers_of_two_le (by simp)]
          by_cases hle : (t :: u :: ts).length ≤ maxMembers
          · rw [if_pos hle]
            exact iff_of_false (by simp) (Nat.not_lt.2 hle)
          · rw [if_neg hle]
            exact iff_of_true rfl (Nat.lt_of_not_le hle)

theorem flatten_ofMembers {ts : List Ty} (hnamed : ∀ t ∈ ts, t.isNamed = true) (hne : ts ≠ [])
    (hany : ofMembers ts ≠ .any) : flatten (ofMembers ts) = ts := by
  rw [Ne, ofMembers_eq_any_iff hnamed, Nat.not_lt] at hany
  cases ts with
  | nil => exact absurd rfl hne
  | cons t ts =>
      cases ts with
      | nil => exact flatten_of_isNamed (hnamed t (List.mem_singleton_self t))
      | cons u ts => rw [ofMembers_of_two_le (by simp), if_pos hany, flatten]

theorem distinct_ne_nil {ts : List Ty} (hwf : ∀ t ∈ ts, WellFormed t) (hne : ts ≠ []) :
    distinct ts ≠ [] := by
  obtain ⟨t, ts, rfl⟩ := List.exists_cons_of_ne_nil hne
  obtain ⟨s, hs⟩ : ∃ s, s ∈ flatten t := by
    cases hwf t (List.mem_cons_self ..) with
    | any => exact ⟨_, List.mem_singleton_self _⟩
    | named => exact ⟨_, List.mem_singleton_self _⟩
    | union htwo => exact List.exists_mem_of_length_pos (Nat.lt_of_lt_of_le (by decide) htwo)
  have hflat : s ∈ (t :: ts).flatMap flatten := List.mem_flatMap.2 ⟨t, List.mem_cons_self .., hs⟩
  obtain ⟨u, hu, -⟩ := within_distinct (t :: ts) s hflat
  exact List.ne_nil_of_mem hu

section

variable {ts : List Ty} (hwf : ∀ t ∈ ts, WellFormed t)
include hwf

/-- A join is given up for one of two reasons. -/
theorem unify_eq_any_iff : unify ts = .any ↔ .any ∈ ts ∨ maxMembers < (distinct ts).length := by
  by_cases hany : .any ∈ ts
  · simp [unify_of_any_mem hany, hany]
  · have hnamed : ∀ s ∈ distinct ts, s.isNamed = true := fun s hs =>
      (named_of_mem_distinct hwf (any_isAny_eq_false_iff.2 hany) hs).1
    rw [unify_of_any_not_mem hany, ofMembers_eq_any_iff hnamed]
    simp [hany]

theorem named_of_mem_distinct_of_unify (hany : unify ts ≠ .any) {s : Ty} (hs : s ∈ distinct ts) :
    s.isNamed = true ∧ WellFormed s := by
  refine named_of_mem_distinct hwf (any_isAny_eq_false_iff.2 fun hmem => ?_) hs
  exact hany (unify_of_any_mem hmem)

/-- A join that is not given up has the distinct members of what is joined. -/
theorem flatten_unify (hne : ts ≠ []) (hany : unify ts ≠ .any) :
    flatten (unify ts) = distinct ts := by
  have hmem : .any ∉ ts := fun h => hany (unify_of_any_mem h)
  rw [unify_of_any_not_mem hmem] at hany ⊢
  refine flatten_ofMembers (fun s hs => ?_) (distinct_ne_nil hwf hne) hany
  exact (named_of_mem_distinct hwf (any_isAny_eq_false_iff.2 hmem) hs).1

end

/-! ### Laws -/

/-- The join of names that are kept apart already. -/
theorem unify_of_named {ts : List Ty} (hnamed : ∀ t ∈ ts, t.isNamed = true)
    (hpairwise : ts.Pairwise fun s t => same s t = false) : unify ts = ofMembers ts := by
  have hany : .any ∉ ts := by
    intro h
    simpa [isNamed] using hnamed _ h
  have hflat := flatMap_flatten_of_named hnamed
  rw [unify_of_any_not_mem hany, distinct_of_pairwise (by rwa [hflat]), hflat]

/-- The join of one type. -/
theorem unify_singleton {t : Ty} (h : WellFormed t) : unify [t] = t := by
  cases h with
  | any => rfl
  | named hargs => exact unify_of_named (by simp [isNamed]) (List.pairwise_singleton _ _)
  | @union members htwo hmax hnamed hmembers hpairwise =>
      have hflat : [union members].flatMap flatten = members := by
        rw [List.flatMap_singleton, flatten]
      rw [unify_of_any_not_mem (by simp), distinct_of_pairwise (by rwa [hflat]), hflat,
        ofMembers_of_two_le htwo, if_pos hmax]

theorem same_ofMembers {ss ts : List Ty} (hss : ss.Pairwise fun s t => same s t = false)
    (hts : ts.Pairwise fun s t => same s t = false) (hst : Within ss ts) (hts' : Within ts ss) :
    same (ofMembers ss) (ofMembers ts) = true := by
  have hlength : ss.length = ts.length :=
    Nat.le_antisymm (length_le_of_within hss hst) (length_le_of_within hts hts')
  match ss, ts, hlength with
  | [], [], _ => exact same_refl _
  | [s], [t], _ =>
      obtain ⟨u, hu, hsu⟩ := hst s (List.mem_singleton_self s)
      obtain rfl := List.mem_singleton.1 hu
      exact hsu
  | s :: s' :: ss, t :: t' :: ts, hlength =>
      simp only [ofMembers, hlength]
      split
      · exact same_union_iff_within.2 ⟨hst, hts'⟩
      · exact same_refl _

/-- A join depends only on which types are joined. -/
theorem same_unify {xs ys : List Ty} (hxy : Within xs ys) (hyx : Within ys xs) :
    same (unify xs) (unify ys) = true := by
  have hany : ∀ {ss ts : List Ty}, Within ss ts → .any ∈ ss → .any ∈ ts := by
    intro ss ts h hmem
    obtain ⟨t, ht, hsame⟩ := h _ hmem
    rwa [← same_any_iff.1 hsame]
  by_cases hx : .any ∈ xs
  · rw [unify_of_any_mem hx, unify_of_any_mem (hany hxy hx)]
    exact same_refl _
  · rw [unify_of_any_not_mem hx, unify_of_any_not_mem fun hy => hx (hany hyx hy)]
    exact same_ofMembers (pairwise_distinct xs) (pairwise_distinct ys)
      (within_distinct_of_within hxy) (within_distinct_of_within hyx)

/-- A join that is given up stays so when more is joined to it. -/
theorem unify_eq_any_of_subset {xs ys : List Ty} (hxs : ∀ t ∈ xs, WellFormed t)
    (hys : ∀ t ∈ ys, WellFormed t) (hsubset : xs ⊆ ys) (h : unify xs = .any) :
    unify ys = .any := by
  rcases (unify_eq_any_iff hxs).1 h with hmem | hlength
  · exact unify_of_any_mem (hsubset hmem)
  · refine (unify_eq_any_iff hys).2 (.inr ?_)
    exact Nat.lt_of_lt_of_le hlength (length_distinct_le (within_of_subset hsubset))

/-- Types can be joined in groups. -/
theorem unify_append {xs ys : List Ty} (hxs : ∀ t ∈ xs, WellFormed t)
    (hys : ∀ t ∈ ys, WellFormed t) (hx : xs ≠ []) (hy : ys ≠ []) :
    unify (xs ++ ys) = unify [unify xs, unify ys] := by
  have hwf : ∀ t ∈ xs ++ ys, WellFormed t := by
    intro t ht
    exact (List.mem_append.1 ht).elim (hxs t) (hys t)
  by_cases hxany : unify xs = .any
  · rw [unify_eq_any_of_subset hxs hwf (List.subset_append_left _ _) hxany, hxany,
      unify_of_any_mem (List.mem_cons_self ..)]
  by_cases hyany : unify ys = .any
  · rw [unify_eq_any_of_subset hys hwf (List.subset_append_right _ _) hyany, hyany,
      unify_of_any_mem (by simp)]
  have hall : .any ∉ xs ++ ys := by
    rw [List.mem_append, not_or]
    exact ⟨fun h => hxany (unify_of_any_mem h), fun h => hyany (unify_of_any_mem h)⟩
  have hpair : .any ∉ [unify xs, unify ys] := by
    simp [Ne.symm hxany, Ne.symm hyany]
  -- The members of the first group are distinct already, so that adding them changes nothing.
  have hfirst : (distinct xs).foldl addMember [] = distinct xs :=
    foldl_addMember_of_pairwise (by simpa using pairwise_distinct xs)
  rw [unify_of_any_not_mem hall, unify_of_any_not_mem hpair, distinct_append,
    distinct.eq_def [unify xs, unify ys]]
  simp only [List.flatMap_cons, List.flatMap_nil, List.append_nil, List.foldl_append,
    flatten_unify hxs hx hxany, flatten_unify hys hy hyany, hfirst]

/-- `unify` is a join up to its bound. What it makes of well-formed types is well formed. Lists with
the same types, each told apart only as far as `same` does, have the same join, whatever the order
and the repetitions; one type is its own join; and to join two groups first and then what comes out
of them gives what joining all at once gives, with the members in the same order, also where a group
or the whole is given up. -/
theorem joins_are_bounded :
    (∀ ts : List Ty, (∀ t ∈ ts, WellFormed t) → WellFormed (unify ts)) ∧
    (∀ xs ys : List Ty, Within xs ys → Within ys xs → same (unify xs) (unify ys) = true) ∧
    (∀ t : Ty, WellFormed t → unify [t] = t) ∧
    ∀ xs ys : List Ty, (∀ t ∈ xs, WellFormed t) → (∀ t ∈ ys, WellFormed t) → xs ≠ [] → ys ≠ [] →
      unify (xs ++ ys) = unify [unify xs, unify ys] :=
  ⟨fun _ => .unify, fun _ _ => same_unify, fun _ => unify_singleton, fun _ _ => unify_append⟩

/-- A union of two names. -/
theorem WellFormed.pair {name name' : String} (h : name ≠ name') :
    WellFormed (.union [.simple name, .simple name']) := by
  refine .union (by simp) (by simp [maxMembers]) (by simp [isNamed]) ?_ (by simp [same, h])
  simpa using ⟨WellFormed.simple name, WellFormed.simple name'⟩

/-- Two groups that share an array, spelled in two ways. Each has few enough members, and both
together have one too many. -/
theorem joins_are_bounded_shared :
    let xs : List Ty := [.union [int, string], .array (.union [int, string])]
    let ys : List Ty := [.array (.union [string, int]), bool]
    unify xs = .union [int, string, .array (.union [int, string])] ∧
    unify ys = .union [.array (.union [string, int]), bool] ∧
    same (unify ys) (unify [bool, .array (.union [int, string]), bool]) = true ∧
    unify (xs ++ ys) = .any ∧ unify (xs ++ ys) = unify [unify xs, unify ys] := by
  intro xs ys
  have heither : WellFormed (.union [int, string]) := .pair (by decide)
  have hreversed : WellFormed (.union [string, int]) := .pair (by decide)
  have hxs : ∀ t ∈ xs, WellFormed t := by
    simpa [xs] using ⟨heither, heither.array⟩
  have hys : ∀ t ∈ ys, WellFormed t := by
    simpa [ys] using ⟨hreversed.array, WellFormed.simple "Bool"⟩
  refine ⟨by cbv, by cbv, joins_are_bounded.2.1 ys _ ?_ ?_, by cbv,
    joins_are_bounded.2.2.2 xs ys hxs hys (by simp [xs]) (by simp [ys])⟩
  · simp [ys, Within, same, sameAll, subsumes, sameAny]
  · simp [ys, Within, same, sameAll, subsumes, sameAny]

end Polyloft.Ty
