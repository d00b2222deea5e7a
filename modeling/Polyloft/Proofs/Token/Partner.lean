import Polyloft.Proofs.Token.Bracketed

/-!
# Polyloft.Proofs.Token.Partner

What the nesting of a token sequence is, told without the counts that the searches keep. The opening
and closing punctuation signs of a sequence are a word (`brackets`), and the word is well bracketed
if it is made of groups, each of one shape (`WellBracketed`). Partners are told by reading with a
stack, whatever the shapes: a closing bracket belongs to the bracket that was opened last
(`bracketPairs`). A token is outside if it belongs to no pair and stands between no two partners
(`Outside`).

The main result, `brackets_follow_nesting`, says of every well-bracketed sequence that the search
for a partner, which counts one shape only, and the splitters, which keep one depth for all shapes,
agree with this nesting (`FollowsNesting`).

## Proof shape

`Nested` is the grammar with the tokens between the brackets left in (`WellBracketed.nested`), and
the inductions are on it. A reading passes over a nested sequence and leaves the stack as it was, so
a group adds its own pair to the pairs of its parts (`Nested.pairsFrom_group`). The depth in front
of a token is then the number of pairs that are open there (`Nested.foldl_take`). The splitters are
compared with any predicate on positions that holds where the depth is zero (`HoldsAtTop`).
-/

namespace Polyloft

/-! ### Words of brackets -/

/-- The opening and closing punctuation signs of a sequence, in their order. -/
def brackets (ts : List Token) : List Token :=
  ts.filter Token.isDelimiter

/-- A word of brackets in which every bracket has its partner: groups, one behind the other, with
such words in them. -/
inductive WellBracketed : List Token → Prop where
  | nil : WellBracketed []
  | group {o c : Token} {inside rest : List Token} (hpair : o.Pairs c)
      (hinside : WellBracketed inside) (hrest : WellBracketed rest) :
      WellBracketed (o :: (inside ++ c :: rest))

namespace Token.Pairs

variable {o c : Token}

theorem isOpening_closing (h : o.Pairs c) : c.isOpening = false := by
  obtain ⟨-, ⟨-, hc⟩ | ⟨-, hc⟩ | ⟨-, hc⟩⟩ := h.texts <;> simp [Token.isOpening, hc]

theorem isClosing_closing (h : o.Pairs c) : c.isClosing = true := by
  obtain ⟨-, ⟨-, hc⟩ | ⟨-, hc⟩ | ⟨-, hc⟩⟩ := h.texts <;> simp [Token.isClosing, h.kind_eq, hc]

theorem isDelimiter_opening (h : o.Pairs c) : o.isDelimiter = true := by
  rw [Token.isDelimiter, h.isOpening, Bool.true_or]

theorem isDelimiter_closing (h : o.Pairs c) : c.isDelimiter = true := by
  rw [Token.isDelimiter, h.isClosing_closing, Bool.or_true]

end Token.Pairs

variable {t o c : Token} {ts us inside rest word : List Token} {index i n d : Nat}

theorem Nested.append (h : Nested ts) (hus : Nested us) : Nested (ts ++ us) := by
  induction h with
  | nil => exact hus
  | plain ht _ ih => exact .plain ht ih
  | @group o c inside rest hpair hinside _ _ ih =>
      rw [List.cons_append, List.append_assoc, List.cons_append]
      exact .group hpair hinside ih

theorem Nested.of_plain (h : ∀ t ∈ ts, ¬t.isDelimiter = true) : Nested ts := by
  induction ts with
  | nil => exact .nil
  | cons t ts ih =>
      rw [List.forall_mem_cons] at h
      exact .plain (Bool.eq_false_iff.2 h.1) (ih h.2)

theorem Nested.wellBracketed (h : Nested ts) : WellBracketed (brackets ts) := by
  induction h with
  | nil => exact .nil
  | plain ht _ ih =>
      rw [brackets, List.filter_cons_of_neg (Bool.eq_false_iff.1 ht)]
      exact ih
  | group hpair _ _ ihinside ih =>
      rw [brackets, List.filter_cons_of_pos hpair.isDelimiter_opening, List.filter_append,
        List.filter_cons_of_pos hpair.isDelimiter_closing]
      exact .group hpair ihinside ih

/-- What stands between the brackets of a well-bracketed word changes nothing. -/
theorem WellBracketed.nested (h : WellBracketed word) (hts : brackets ts = word) : Nested ts := by
  induction h generalizing ts with
  | nil => exact .of_plain (List.filter_eq_nil_iff.1 hts)
  | @group o c inside rest hpair _ _ ihinside ih =>
      obtain ⟨before, behind, rfl, hbefore, -, hbehind⟩ := List.filter_eq_cons_iff.1 hts
      obtain ⟨within, behind, rfl, hwithin, hbehind⟩ := List.filter_eq_append_iff.1 hbehind
      obtain ⟨gap, behind, rfl, hgap, -, hbehind⟩ := List.filter_eq_cons_iff.1 hbehind
      have hinside : Nested (within ++ gap) := (ihinside hwithin).append (.of_plain hgap)
      rw [← List.append_assoc within]
      exact (Nested.of_plain hbefore).append (.group hpair hinside (ih hbehind))

/-! ### Pairs -/

/-- The pairs of positions, counted from `index`, that a reading with a stack of open brackets
finds. A closing bracket is paired with the last one that is open. -/
def pairsFrom (index : Nat) (opened : List Nat) : List Token → List (Nat × Nat)
  | [] => []
  | t :: ts =>
    if t.isOpening then pairsFrom (index + 1) (index :: opened) ts
    else if t.isClosing then
      match opened with
      | [] => pairsFrom (index + 1) [] ts
      | i :: opened => (i, index) :: pairsFrom (index + 1) opened ts
    else pairsFrom (index + 1) opened ts

/-- The positions of partners. -/
def bracketPairs (ts : List Token) : List (Nat × Nat) :=
  pairsFrom 0 [] ts

variable {opened : List Nat}

theorem pairsFrom_plain (ht : t.isDelimiter = false) :
    pairsFrom index opened (t :: ts) = pairsFrom (index + 1) opened ts := by
  rw [Token.isDelimiter, Bool.or_eq_false_iff] at ht
  simp [pairsFrom, ht.1, ht.2]

namespace Token.Pairs

theorem pairsFrom_opening (h : o.Pairs c) :
    pairsFrom index opened (o :: ts) = pairsFrom (index + 1) (index :: opened) ts := by
  simp [pairsFrom, h.isOpening]

theorem pairsFrom_closing (h : o.Pairs c) :
    pairsFrom index (i :: opened) (c :: ts) = (i, index) :: pairsFrom (index + 1) opened ts := by
  simp [pairsFrom, h.isOpening_closing, h.isClosing_closing]

end Token.Pairs

namespace Nested

/-- A reading passes over a nested sequence and leaves the stack as it was. -/
theorem pairsFrom_append (h : Nested ts) (index : Nat) (opened : List Nat) (rest : List Token) :
    pairsFrom index opened (ts ++ rest) =
      pairsFrom index [] ts ++ pairsFrom (index + ts.length) opened rest := by
  induction h generalizing index opened rest with
  | nil => rfl
  | @plain t ts ht _ ih =>
      rw [List.cons_append, pairsFrom_plain ht, pairsFrom_plain ht, ih, List.length_cons,
        Nat.add_right_comm, Nat.add_assoc index]
  | @group o c inside more hpair _ _ ihinside ih =>
      rw [List.cons_append, List.append_assoc, List.cons_append, hpair.pairsFrom_opening,
        hpair.pairsFrom_opening, ihinside, ihinside, hpair.pairsFrom_closing,
        hpair.pairsFrom_closing, ih, List.append_assoc, List.cons_append]
      simp only [List.length_cons, List.length_append]
      congr 4
      omega

/-- A group adds its own pair to those of its inside and of what stands behind it. -/
theorem pairsFrom_group (h : Nested inside) (hpair : o.Pairs c) (index : Nat)
    (rest : List Token) :
    pairsFrom index [] (o :: (inside ++ c :: rest)) =
      pairsFrom (index + 1) [] inside ++ (index, index + 1 + inside.length) ::
        pairsFrom (index + 1 + inside.length + 1) [] rest := by
  rw [hpair.pairsFrom_opening, h.pairsFrom_append, hpair.pairsFrom_closing]

theorem mem_pairsFrom_group (h : Nested inside) (hpair : o.Pairs c) {p : Nat × Nat} :
    p ∈ pairsFrom index [] (o :: (inside ++ c :: rest)) ↔
      p ∈ pairsFrom (index + 1) [] inside ∨ p = (index, index + 1 + inside.length) ∨
        p ∈ pairsFrom (index + 1 + inside.length + 1) [] rest := by
  rw [h.pairsFrom_group hpair, List.mem_append, List.mem_cons]

/-- Partners stand within the sequence, the opening bracket first. -/
theorem bounds_of_mem (h : Nested ts) {p : Nat × Nat} (hp : p ∈ pairsFrom index [] ts) :
    index ≤ p.1 ∧ p.1 < p.2 ∧ p.2 < index + ts.length := by
  induction h generalizing index with
  | nil => exact absurd hp List.not_mem_nil
  | plain ht _ ih =>
      rw [pairsFrom_plain ht] at hp
      have := ih hp
      rw [List.length_cons]
      omega
  | group hpair hinside _ ihinside ih =>
      rw [List.length_cons, List.length_append, List.length_cons]
      rcases (hinside.mem_pairsFrom_group hpair).1 hp with hp | rfl | hp
      · have := ihinside hp
        omega
      · dsimp only
        omega
      · have := ih hp
        omega

/-- The opening bracket of a group is paired with the closing one. -/
theorem mem_pairsFrom_opening (h : Nested inside) (hpair : o.Pairs c) (hrest : Nested rest) :
    (index, n) ∈ pairsFrom index [] (o :: (inside ++ c :: rest)) ↔
      n = index + 1 + inside.length := by
  rw [h.mem_pairsFrom_group hpair]
  constructor
  · rintro (hp | hp | hp)
    · have := h.bounds_of_mem hp
      omega
    · exact (Prod.mk.inj hp).2
    · have := hrest.bounds_of_mem hp
      omega
  · rintro rfl
    exact .inr (.inl rfl)

theorem mem_pairsFrom_inside (h : Nested inside) (hpair : o.Pairs c) (hrest : Nested rest)
    (hopening : index < i) (hclosing : i < index + 1 + inside.length) :
    (i, n) ∈ pairsFrom index [] (o :: (inside ++ c :: rest)) ↔
      (i, n) ∈ pairsFrom (index + 1) [] inside := by
  rw [h.mem_pairsFrom_group hpair]
  refine ⟨fun hp => hp.resolve_right ?_, .inl⟩
  rintro (hp | hp)
  · have := (Prod.mk.inj hp).1
    omega
  · have := hrest.bounds_of_mem hp
    omega

theorem mem_pairsFrom_behind (h : Nested inside) (hpair : o.Pairs c)
    (hclosing : index + 1 + inside.length < i) :
    (i, n) ∈ pairsFrom index [] (o :: (inside ++ c :: rest)) ↔
      (i, n) ∈ pairsFrom (index + 1 + inside.length + 1) [] rest := by
  rw [h.mem_pairsFrom_group hpair]
  refine ⟨fun hp => (hp.resolve_left ?_).resolve_left ?_, fun hp => .inr (.inr hp)⟩
  · intro hp
    have := h.bounds_of_mem hp
    omega
  · intro hp
    have := (Prod.mk.inj hp).1
    omega

end Nested

/-! ### Partners -/

/-- Where a token of a group and what follows it can stand. -/
theorem getElem?_group (h : (o :: (inside ++ c :: rest))[i]? = some t) :
    i = 0 ∧ t = o ∨ (∃ k, i = k + 1 ∧ inside[k]? = some t) ∨ i = inside.length + 1 ∧ t = c ∨
      ∃ k, i = inside.length + 2 + k ∧ rest[k]? = some t := by
  cases i with
  | zero => exact .inl ⟨rfl, (Option.some.inj h).symm⟩
  | succ i =>
      rw [List.getElem?_cons_succ] at h
      rcases Nat.lt_trichotomy i inside.length with hlt | rfl | hgt
      · exact .inr (.inl ⟨i, rfl, by rwa [List.getElem?_append_left hlt] at h⟩)
      · rw [List.getElem?_append_right (Nat.le_refl _), Nat.sub_self] at h
        exact .inr (.inr (.inl ⟨rfl, (Option.some.inj h).symm⟩))
      · obtain ⟨k, rfl⟩ := Nat.exists_eq_add_of_lt hgt
        rw [List.getElem?_append_right (by omega),
          show inside.length + k + 1 - inside.length = k + 1 by omega,
          List.getElem?_cons_succ] at h
        exact .inr (.inr (.inr ⟨k, by omega, h⟩))

/-- What stands in front of a bracket is not looked at. -/
theorem matching?_append (before ts : List Token) :
    matching? (before ++ ts) before.length = (matching? ts 0).map (before.length + ·) := by
  rw [matching?, matching?, List.drop_left, List.drop_zero]
  cases ts with
  | nil => rfl
  | cons t ts =>
      dsimp only
      rw [Option.map_bind]
      congr 1
      funext closing
      rw [Function.comp_apply, Option.map_map]
      congr 1
      funext n
      rw [Function.comp_apply]
      omega

/-- Every opening bracket opens a group, and only the end of the group is paired with it. -/
theorem Nested.exists_group (h : Nested ts) (index : Nat) (hi : ts[i]? = some o)
    (ho : o.isOpening = true) (hn : n = index + i) :
    ∃ before inside c rest, ts = before ++ o :: (inside ++ c :: rest) ∧ before.length = i ∧
      o.Pairs c ∧ Nested inside ∧
      ∀ k, (n, k) ∈ pairsFrom index [] ts ↔ k = n + 1 + inside.length := by
  induction h generalizing index i with
  | nil => simp at hi
  | @plain t ts ht _ ih =>
      cases i with
      | zero =>
          obtain rfl : t = o := Option.some.inj hi
          rw [Token.isDelimiter, ho] at ht
          exact absurd ht (by simp)
      | succ i =>
          obtain ⟨before, inside, c, rest, heq, hlength, hpair, hinside, hk⟩ :=
            ih (index + 1) hi (by omega)
          rw [pairsFrom_plain ht]
          exact ⟨t :: before, inside, c, rest, by rw [heq, List.cons_append],
            congrArg (· + 1) hlength, hpair, hinside, hk⟩
  | @group o' c' within more hpair' hwithin hmore ihwithin ih =>
      -- The bracket opens this group, a group in it or one behind it; the end of this group is none.
      rcases getElem?_group hi with ⟨rfl, rfl⟩ | ⟨k, rfl, hk⟩ | ⟨rfl, rfl⟩ | ⟨k, rfl, hk⟩
      · obtain rfl : n = index := hn
        exact ⟨[], within, c', more, rfl, rfl, hpair', hwithin,
          fun k => hwithin.mem_pairsFrom_opening hpair' hmore⟩
      · have hlt : k < within.length := (List.getElem?_eq_some_iff.1 hk).1
        obtain ⟨before, inside, c, rest, heq, hlength, hpair, hinside, hpairs⟩ :=
          ihwithin (index + 1) hk (by omega)
        refine ⟨o' :: before, inside, c, rest ++ c' :: more, by simp [heq],
          congrArg (· + 1) hlength, hpair, hinside, fun k => ?_⟩
        rw [hwithin.mem_pairsFrom_inside hpair' hmore (by omega) (by omega), hpairs]
      · rw [hpair'.isOpening_closing] at ho
        exact absurd ho Bool.false_ne_true
      · obtain ⟨before, inside, c, rest, heq, hlength, hpair, hinside, hpairs⟩ :=
          ih (index + 1 + within.length + 1) hk (by omega)
        refine ⟨o' :: (within ++ c' :: before), inside, c, rest, by simp [heq], ?_, hpair, hinside,
          fun k => ?_⟩
        · rw [List.length_cons, List.length_append, List.length_cons]
          omega
        · rw [hwithin.mem_pairsFrom_behind hpair' (by omega), hpairs]

/-! ### Depth -/

/-- The pair is open in front of position `n`. -/
def isOpenAt (n : Nat) (p : Nat × Nat) : Bool :=
  p.1 < n && n ≤ p.2

/-- The depth of the splitters in front of position `i`. -/
def depthAt (ts : List Token) (i : Nat) : Nat :=
  (ts.take i).foldl depthAfter 0

/-- Neither in front of a sequence nor behind it one of its pairs is open. -/
theorem Nested.countP_isOpenAt_eq_zero (h : Nested ts)
    (hn : n ≤ index ∨ index + ts.length ≤ n) :
    (pairsFrom index [] ts).countP (isOpenAt n) = 0 := by
  rw [List.countP_eq_zero]
  intro p hp hopen
  have := h.bounds_of_mem hp
  rw [isOpenAt, Bool.and_eq_true, decide_eq_true_eq, decide_eq_true_eq] at hopen
  omega

/-- The depth grows by the number of pairs that are open. -/
theorem Nested.foldl_take (h : Nested ts) (index d : Nat) (hn : n = index + i) :
    (ts.take i).foldl depthAfter d = d + (pairsFrom index [] ts).countP (isOpenAt n) := by
  induction h generalizing index i d with
  | nil => simp [pairsFrom]
  | @plain t ts ht hts ih =>
      rw [pairsFrom_plain ht]
      cases i with
      | zero => rw [hts.countP_isOpenAt_eq_zero (by omega)]; rfl
      | succ i =>
          rw [List.take_succ_cons, List.foldl_cons, Token.depthAfter_of_isDelimiter ht]
          exact ih (index + 1) d (by omega)
  | @group o c inside rest hpair hinside hrest ihinside ih =>
      rw [hinside.pairsFrom_group hpair, List.countP_append, List.countP_cons]
      cases i with
      | zero =>
          have hown : isOpenAt n (index, index + 1 + inside.length) = false := by
            simp [isOpenAt, hn]
          rw [hinside.countP_isOpenAt_eq_zero (by omega),
            hrest.countP_isOpenAt_eq_zero (by omega), hown]
          rfl
      | succ i =>
          rw [List.take_succ_cons, List.foldl_cons, hpair.depthAfter_opening]
          rcases Nat.lt_or_ge inside.length i with hlt | hle
          · -- Behind the group, which has left the depth as it was.
            obtain ⟨k, rfl⟩ := Nat.exists_eq_add_of_lt hlt
            have hown : isOpenAt n (index, index + 1 + inside.length) = false := by
              simp only [isOpenAt, Bool.and_eq_false_iff, decide_eq_false_iff_not]
              omega
            rw [Nat.add_assoc inside.length, List.take_length_add_append, List.take_succ_cons,
              List.foldl_append, List.foldl_cons, hinside.foldl_depthAfter,
              hpair.depthAfter_closing, ih (index + 1 + inside.length + 1) d (by omega),
              hinside.countP_isOpenAt_eq_zero (by omega), hown]
            simp
          · -- Between the brackets: the pair of the group is open, and those behind it are not.
            have hown : isOpenAt n (index, index + 1 + inside.length) = true := by
              simp only [isOpenAt, Bool.and_eq_true, decide_eq_true_eq]
              omega
            rw [List.take_append_of_le_length hle, ihinside (index + 1) (d + 1) (by omega),
              hrest.countP_isOpenAt_eq_zero (by omega), hown]
            simp only [if_true]
            omega

/-- Neither a bracket of a pair nor between two partners. -/
def Outside (ts : List Token) (i : Nat) : Prop :=
  ∀ p ∈ bracketPairs ts, i < p.1 ∨ p.2 < i

instance (ts : List Token) (i : Nat) : Decidable (Outside ts i) :=
  inferInstanceAs (Decidable (∀ p ∈ bracketPairs ts, i < p.1 ∨ p.2 < i))

theorem Nested.depthAt_eq (h : Nested ts) (i : Nat) :
    depthAt ts i = (bracketPairs ts).countP (isOpenAt i) := by
  rw [depthAt, h.foldl_take 0 0 (Nat.zero_add i).symm, Nat.zero_add, bracketPairs]

/-- Outside of all pairs the depth is zero on both sides of a token. -/
theorem Nested.outside_iff (h : Nested ts) :
    Outside ts i ↔ depthAt ts i = 0 ∧ depthAt ts (i + 1) = 0 := by
  rw [h.depthAt_eq, h.depthAt_eq, List.countP_eq_zero, List.countP_eq_zero]
  simp only [isOpenAt, Bool.and_eq_true, decide_eq_true_eq]
  constructor
  · intro hout
    constructor <;>
    · intro p hp
      have := hout p hp
      omega
  · rintro ⟨hbefore, hafter⟩ p hp
    have := hbefore p hp
    have := hafter p hp
    have := h.bounds_of_mem hp
    omega

theorem depthAt_succ (hi : ts[i]? = some t) :
    depthAt ts (i + 1) = depthAfter (depthAt ts i) t := by
  rw [depthAt, depthAt, List.take_add_one, hi, Option.toList_some, List.foldl_append]
  rfl

/-- A token that is no bracket has the depth zero exactly outside of all pairs. -/
theorem Nested.outside_iff_of_plain (h : Nested ts) (hi : ts[i]? = some t)
    (ht : t.isDelimiter = false) : Outside ts i ↔ depthAt ts i = 0 := by
  rw [h.outside_iff, depthAt_succ hi, Token.depthAfter_of_isDelimiter ht, and_self]

/-! ### Splitting -/

/-- On the tokens that `isCut` accepts, `top` holds at the positions, counted from `index`, at which
a splitter that starts with the depth `d` has the depth zero. -/
def HoldsAtTop (isCut : Token → Bool) (top : Nat → Bool) (index d : Nat) (ts : List Token) : Prop :=
  ∀ i t, ts[i]? = some t → isCut t = true →
    (top (index + i) = true ↔ (ts.take i).foldl depthAfter d = 0)

namespace HoldsAtTop

variable {isCut : Token → Bool} {top : Nat → Bool}

theorem head (h : HoldsAtTop isCut top index d (t :: ts)) :
    (d == 0 && isCut t) = (isCut t && top index) := by
  cases hcut : isCut t with
  | false => rw [Bool.and_false, Bool.false_and]
  | true =>
      rw [Bool.and_true, Bool.true_and, Bool.eq_iff_iff, beq_iff_eq]
      exact (h 0 t rfl hcut).symm

theorem tail (h : HoldsAtTop isCut top index d (t :: ts)) :
    HoldsAtTop isCut top (index + 1) (depthAfter d t) ts := by
  intro i u hu hcut
  rw [Nat.add_right_comm, Nat.add_assoc]
  exact h (i + 1) u hu hcut

theorem partsFrom_eq (h : HoldsAtTop isCut top index d ts) :
    partsFrom isCut d ts =
      ((ts.zipIdx index).splitOnP fun p => isCut p.1 && top p.2).map (·.map Prod.fst) := by
  induction ts generalizing index d with
  | nil => rfl
  | cons t ts ih =>
      rw [partsFrom, List.zipIdx_cons, List.splitOnP_cons_eq_if_modifyHead, ih h.tail, h.head]
      split
      · rfl
      · obtain ⟨part, parts, heq⟩ := List.exists_cons_of_ne_nil (List.splitOnP_ne_nil
          (fun p : Token × Nat => isCut p.1 && top p.2) (ts.zipIdx (index + 1)))
        rw [heq]
        rfl

theorem splitTopFrom_eq {isOperator : String → Bool}
    (h : HoldsAtTop (·.isOperatorIn isOperator) top index d ts) :
    splitTopFrom isOperator index d ts =
      ((ts.zipIdx index).filter fun p => p.1.isOperatorIn isOperator && top p.2).map Prod.swap := by
  induction ts generalizing index d with
  | nil => rfl
  | cons t ts ih =>
      rw [splitTopFrom, List.zipIdx_cons, List.filter_cons, ih h.tail, h.head]
      dsimp only
      split <;> rfl

end HoldsAtTop

theorem Nested.holdsAtTop (h : Nested ts) {isCut : Token → Bool}
    (hcut : ∀ t, isCut t = true → t.isDelimiter = false) :
    HoldsAtTop isCut (fun i => decide (Outside ts i)) 0 0 ts := by
  intro i t hi ht
  rw [Nat.zero_add, decide_eq_true_eq]
  exact h.outside_iff_of_plain hi (hcut t ht)

/-- The sign is a comma outside of all pairs. -/
def isOuterComma (ts : List Token) (p : Token × Nat) : Bool :=
  p.1.isSymbol "," && decide (Outside ts p.2)

/-- The commas outside of all pairs, in their order. -/
def outerCommas (ts : List Token) : List Token :=
  (ts.zipIdx.filter (isOuterComma ts)).map Prod.fst

/-- What stands between the commas outside of all pairs, empty parts included. -/
def commaParts (ts : List Token) : List (List Token) :=
  (ts.zipIdx.splitOnP (isOuterComma ts)).map (·.map Prod.fst)

/-- The parts, one behind the other, with the separators between them. -/
def joinParts (parts : List (List Token)) (separators : List Token) : List Token :=
  (List.zipWith (· ++ ·) parts (separators.map ([·]) ++ [[]])).flatten

/-- Nothing but the commas is missing between the parts. -/
theorem joinParts_commaParts (ts : List Token) :
    joinParts (commaParts ts) (outerCommas ts) = ts := by
  have hseparators : ((ts.zipIdx.filter (isOuterComma ts)).map Prod.fst).map ([·]) ++ [[]] =
      ((ts.zipIdx.filter (isOuterComma ts)).map ([·]) ++ [[]]).map (List.map Prod.fst) := by
    simp
  have hwhole := congrArg (List.map Prod.fst) (List.splitOnP_spec (p := isOuterComma ts) ts.zipIdx)
  rw [List.zipIdx_map_fst, List.map_flatten, List.map_zipWith] at hwhole
  rw [joinParts, commaParts, outerCommas, hseparators, List.zipWith_map]
  simpa only [List.map_append] using hwhole

theorem Token.isDelimiter_of_comma (h : t.isSymbol "," = true) : t.isDelimiter = false := by
  rw [isSymbol, Bool.and_eq_true, beq_iff_eq] at h
  simp [isDelimiter, isOpening, isClosing, h.2]

theorem Token.isDelimiter_of_isOperatorIn {isOperator : String → Bool}
    (h : t.isOperatorIn isOperator = true) : t.isDelimiter = false := by
  have hkind : t.kind ≠ .punct := by
    intro hkind
    simp [isOperatorIn, isKeyword, hkind] at h
  simp [isDelimiter, isOpening, isClosing, hkind]

theorem Nested.splitCommas_eq (h : Nested ts) :
    splitCommas ts = (commaParts ts).filter fun part => !part.isEmpty := by
  rw [splitCommas, (h.holdsAtTop fun _ => Token.isDelimiter_of_comma).partsFrom_eq]
  rfl

/-! ### Main result -/

/-- What is found about the brackets of a sequence is what their nesting says. -/
structure FollowsNesting (ts : List Token) : Prop where
  /-- The search from an opening bracket ends at the one bracket that is paired with it. The two
  have one shape, and what stands between them is well bracketed. -/
  partner {i : Nat} {o : Token} (hi : ts[i]? = some o) (ho : o.isOpening = true) :
    ∃ j c, matching? ts i = some j ∧ ts[j]? = some c ∧ o.Pairs c ∧
      (∀ k, (i, k) ∈ bracketPairs ts ↔ k = j) ∧
      WellBracketed (brackets ((ts.take j).drop (i + 1)))
  /-- The splitters have the depth zero on both sides of a token exactly outside of all pairs. -/
  depth (i : Nat) : Outside ts i ↔ depthAt ts i = 0 ∧ depthAt ts (i + 1) = 0
  /-- Operators are found outside of all pairs, and nowhere else. -/
  operators (isOperator : String → Bool) :
    splitTop isOperator ts = (ts.zipIdx.filter fun p =>
      p.1.isOperatorIn isOperator && decide (Outside ts p.2)).map Prod.swap
  /-- Sequences are cut at the commas outside of all pairs, and nowhere else. -/
  commas : splitCommas ts = (commaParts ts).filter fun part => !part.isEmpty
  /-- If no part is empty, the parts with the commas between them are the sequence. -/
  joined (h : [] ∉ commaParts ts) : joinParts (splitCommas ts) (outerCommas ts) = ts

/-- In a well-bracketed sequence partners are found, and operators and commas outside of all pairs,
as the nesting of all three shapes has it. -/
theorem brackets_follow_nesting (h : WellBracketed (brackets ts)) : FollowsNesting ts := by
  have hts : Nested ts := h.nested rfl
  constructor
  case partner =>
    intro i o hi ho
    obtain ⟨before, inside, c, rest, rfl, rfl, hpair, hinside, hpairs⟩ :=
      hts.exists_group 0 hi ho (Nat.zero_add _).symm
    have hplace : before.length + 1 + inside.length = before.length + (inside.length + 1) := by
      omega
    refine ⟨before.length + 1 + inside.length, c, ?_, ?_, hpair, hpairs, ?_⟩
    · rw [matching?_append, matching?_of_pairs hpair hinside, Option.map_some, hplace]
    · rw [hplace, List.getElem?_append_right (Nat.le_add_right _ _), Nat.add_sub_cancel_left,
        List.getElem?_cons_succ, List.getElem?_append_right (Nat.le_refl _), Nat.sub_self]
      rfl
    · rw [hplace, List.take_length_add_append, List.take_succ_cons, List.take_left,
        List.drop_length_add_append]
      exact hinside.wellBracketed
  case depth => exact fun i => hts.outside_iff
  case operators =>
    intro isOperator
    exact (hts.holdsAtTop fun _ => Token.isDelimiter_of_isOperatorIn).splitTopFrom_eq
  case commas => exact hts.splitCommas_eq
  case joined =>
    intro hparts
    have hall : ((commaParts ts).filter fun part => !part.isEmpty) = commaParts ts := by
      rw [List.filter_eq_self]
      intro part hpart
      rw [Bool.not_eq_true', List.isEmpty_eq_false_iff]
      rintro rfl
      exact hparts hpart
    rw [hts.splitCommas_eq, hall, joinParts_commaParts]

/-- The tokens of `f(a, [b + \x7b\x7d]), d + e`. -/
def mixedGroups : List Token :=
  [⟨.identifier, "f", 0, 0, true⟩, ⟨.punct, "(", 0, 1, true⟩, ⟨.identifier, "a", 0, 2, true⟩,
    ⟨.punct, ",", 0, 3, true⟩, ⟨.punct, "[", 0, 5, true⟩, ⟨.identifier, "b", 0, 6, true⟩,
    ⟨.operator, "+", 0, 8, true⟩, ⟨.punct, "\x7b", 0, 10, true⟩, ⟨.punct, "\x7d", 0, 11, true⟩,
    ⟨.punct, "]", 0, 12, true⟩, ⟨.punct, ")", 0, 13, true⟩, ⟨.punct, ",", 0, 14, true⟩,
    ⟨.identifier, "d", 0, 16, true⟩, ⟨.operator, "+", 0, 18, true⟩, ⟨.identifier, "e", 0, 20, true⟩]

/-- The parenthesis is closed behind the groups of the two other shapes, and only the last comma and
the last operator are outside. -/
theorem brackets_follow_nesting_mixed :
    WellBracketed (brackets mixedGroups) ∧ matching? mixedGroups 1 = some 10 ∧
      splitTop (· == "+") mixedGroups = [(13, ⟨.operator, "+", 0, 18, true⟩)] ∧
      [] ∉ commaParts mixedGroups ∧
      joinParts (splitCommas mixedGroups) (outerCommas mixedGroups) = mixedGroups := by
  let sign (s : String) (column : Nat) : Token := ⟨.punct, s, 0, column, true⟩
  have hbraces : WellBracketed [sign "\x7b" 10, sign "\x7d" 11] :=
    @WellBracketed.group _ _ [] [] ⟨rfl, rfl, rfl⟩ .nil .nil
  have hsquare : WellBracketed [sign "[" 5, sign "\x7b" 10, sign "\x7d" 11, sign "]" 12] :=
    @WellBracketed.group _ _ [_, _] [] ⟨rfl, rfl, rfl⟩ hbraces .nil
  have hword : WellBracketed (brackets mixedGroups) :=
    @WellBracketed.group (sign "(" 1) (sign ")" 13) [_, _, _, _] [] ⟨rfl, rfl, rfl⟩ hsquare .nil
  have hparts : [] ∉ commaParts mixedGroups := by decide +kernel
  have h := brackets_follow_nesting hword
  obtain ⟨j, -, hj, -, -, hpairs, -⟩ := h.partner (i := 1) rfl rfl
  obtain rfl : 10 = j := (hpairs 10).1 (by decide +kernel)
  refine ⟨hword, hj, ?_, hparts, h.joined hparts⟩
  rw [h.operators]
  decide +kernel

end Polyloft
