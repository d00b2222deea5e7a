import Polyloft.Proofs.Parameter.Grammar
import Polyloft.Proofs.Parameter.Split
import Polyloft.Proofs.Token.Cursor

/-!
# Polyloft.Proofs.Parameter.Column

Where the names of parameters stand. In the text of a parameter the name comes behind all dots at
its start and behind the blanks that follow these. The column of a parameter is counted differently:
it is the start of the text, and three characters further if the text starts with three dots. The
two are the same for every parameter that follows the grammar. Where only a name could be made out,
they are the same exactly if the name is not marked by dots, or is marked by three dots and follows
these at once.

## Proof shape

What is read as a parameter is told by its text: `Follows` for one that follows the grammar, and
`recover?_eq_some` for one that does not. From either it can be seen that the name stands at
`nameStart`. Up to there the text has dots and blanks only, and a name starts with neither.
-/

namespace Polyloft

open Polyloft.Text

namespace Text

/-! ### Trimmed texts -/

theorem dropEndWhile_isPrefix (p : Char → Bool) (cs : List Char) : dropEndWhile p cs <+: cs := by
  obtain ⟨tail, heq, -⟩ := dropEndWhile_append_rest p cs
  exact ⟨tail, heq.symm⟩

theorem drop_leadingBlanks (cs : List Char) : cs.drop (leadingBlanks cs) = stripStart cs :=
  Cursor.rest_skipWhile isBlank ⟨0, cs⟩

/-- The trimmed text stands behind the blanks at the start. -/
theorem strip_prefix_drop (cs : List Char) : strip cs <+: cs.drop (leadingBlanks cs) := by
  rw [drop_leadingBlanks]
  exact dropEndWhile_isPrefix isBlank _

theorem isBlank_of_head?_strip {cs : List Char} {c : Char} (h : (strip cs).head? = some c) :
    isBlank c = false := by
  obtain ⟨rest, hrest⟩ : strip cs <+: cs.dropWhile isBlank := dropEndWhile_isPrefix isBlank _
  have hhead := List.head?_dropWhile_not isBlank cs
  rw [← hrest, List.head?_append, h] at hhead
  simpa using hhead

end Text

namespace Parameter

/-! ### Names in their texts -/

theorem variadic_iff_of_parse? {piece : List Char} {p : Parameter} (h : parse? piece = some p) :
    p.variadic = true ↔ ['.', '.', '.'] <+: strip piece := by
  rcases parse?_cases h with ⟨h, -⟩ | ⟨-, rfl⟩
  · rcases parseGrammar?_eq (strip piece) with ⟨rest, hcs, heq⟩ | ⟨hdots, heq⟩
    · rw [(follows_of_parseNamed? (heq.symm.trans h)).1, hcs]
      exact iff_of_true rfl (List.prefix_append _ rest)
    · rw [(follows_of_parseNamed? (heq.symm.trans h)).1]
      exact iff_of_false Bool.false_ne_true hdots
  · exact List.isPrefixOf_iff_prefix

/-- Where the name of a parameter stands in its text: behind the dots at the start, and behind the
blanks that follow these. -/
def nameStart (cs : List Char) : Nat :=
  (cs.takeWhile (· == '.')).length + leadingBlanks (cs.dropWhile (· == '.'))

theorem drop_nameStart (cs : List Char) :
    cs.drop (nameStart cs) = stripStart (cs.dropWhile (· == '.')) := by
  have hdots : cs.drop (cs.takeWhile (· == '.')).length = cs.dropWhile (· == '.') :=
    Cursor.rest_skipWhile (· == '.') ⟨0, cs⟩
  rw [nameStart, ← List.drop_drop, hdots, drop_leadingBlanks]

theorem dropWhile_takeWhile {p q : Char → Bool} (h : ∀ c, p c = true → q c = true)
    (cs : List Char) : (cs.takeWhile q).dropWhile p = (cs.dropWhile p).takeWhile q := by
  induction cs with
  | nil => rfl
  | cons c cs ih =>
      cases hp : p c with
      | true => simp [h c hp, hp, ih]
      | false => cases hq : q c <;> simp [hp, hq]

theorem name_prefix_of_follows {cs : List Char} {p : Parameter} (h : Follows p cs) :
    p.name.toList <+: cs.drop (nameStart cs) := by
  cases h with
  | @mk ws typing ws' default hname =>
      generalize ws ++ (typing ++ (ws' ++ default)) = rest
      obtain ⟨d, ds, hcs, hdot, hblank⟩ :=
        exists_cons_of_isIdentifier (isIdentifier_of_isTypeName hname)
      rw [drop_nameStart, stripStart, toList_renderName, hcs]
      have hdrop : ((if p.variadic then ['.', '.', '.'] else []) ++
          (d :: ds ++ if p.optional then ['?'] else []) ++ rest).dropWhile (· == '.') =
            d :: ds ++ ((if p.optional then ['?'] else []) ++ rest) := by
        cases p.variadic <;> simp [hdot]
      rw [hdrop, List.cons_append, List.dropWhile_cons_of_neg (by simp [hblank])]
      exact List.prefix_append (d :: ds) _

theorem recoverName_isPrefix (cs : List Char) : recoverName cs <+: cs.drop (nameStart cs) := by
  have hblank (c : Char) (hc : isBlank c = true) : (c != ':' && c != '=') = true := by
    rw [Bool.and_eq_true, bne_iff_ne, bne_iff_ne]
    constructor
    · rintro rfl
      exact absurd hc (by decide)
    · rintro rfl
      exact absurd hc (by decide)
  rw [drop_nameStart, recoverName]
  refine (dropEndWhile_isPrefix _ _).trans ((dropEndWhile_isPrefix isBlank _).trans ?_)
  rw [stripStart, dropWhile_takeWhile hblank]
  exact List.takeWhile_prefix _

/-- The name of a parameter stands behind all dots and the blanks that follow these. -/
theorem name_prefix_of_parse? {piece : List Char} {p : Parameter} (h : parse? piece = some p) :
    p.name.toList <+: (strip piece).drop (nameStart (strip piece)) := by
  rcases parse?_cases h with ⟨-, h⟩ | ⟨-, rfl⟩
  · exact name_prefix_of_follows h
  · rw [String.toList_ofList]
    exact recoverName_isPrefix _

/-! ### Columns -/

/-- The name comes first, or right behind three dots. -/
def MarksName (text : List Char) : Prop :=
  text.head? ≠ some '.' ∨
    ∃ c rest, text = '.' :: '.' :: '.' :: c :: rest ∧ c ≠ '.' ∧ isBlank c = false

theorem marksName_of_follows {cs : List Char} {p : Parameter} (h : Follows p cs) :
    MarksName cs := by
  cases h with
  | @mk ws typing ws' default hname =>
      obtain ⟨d, ds, hcs, hdot, hblank⟩ :=
        exists_cons_of_isIdentifier (isIdentifier_of_isTypeName hname)
      rw [toList_renderName, hcs]
      cases p.variadic with
      | true => exact .inr ⟨d, _, rfl, hdot, hblank⟩
      | false => exact .inl (by simpa using hdot)

theorem nameStart_of_marksName {piece : List Char} {p : Parameter} (h : parse? piece = some p)
    (hmarks : MarksName (strip piece)) :
    nameStart (strip piece) = if p.variadic then 3 else 0 := by
  have hvariadic := variadic_iff_of_parse? h
  have hblank (cs : List Char) (h : ∀ c, cs.head? = some c → isBlank c = false) :
      leadingBlanks cs = 0 := by
    cases cs with
    | nil => rfl
    | cons c cs =>
        rw [leadingBlanks, List.takeWhile_cons_of_neg (by simp [h c rfl]), List.length_nil]
  rcases hmarks with hhead | ⟨c, rest, htext, hdot, hc⟩
  · have hdots : (strip piece).takeWhile (· == '.') = [] ∧
        (strip piece).dropWhile (· == '.') = strip piece := by
      cases htext : strip piece with
      | nil => exact ⟨rfl, rfl⟩
      | cons c cs =>
          have hc : c ≠ '.' := by simpa [htext] using hhead
          exact ⟨List.takeWhile_cons_of_neg (by simp [hc]),
            List.dropWhile_cons_of_neg (by simp [hc])⟩
    have hnot : p.variadic = false := by
      rw [← Bool.not_eq_true, hvariadic]
      rintro ⟨rest, hrest⟩
      rw [← hrest] at hhead
      exact hhead rfl
    rw [nameStart, hdots.1, hdots.2, hnot, hblank _ fun c => isBlank_of_head?_strip]
    rfl
  · have hyes : p.variadic = true := hvariadic.2 ⟨c :: rest, htext.symm⟩
    rw [nameStart, htext, hyes]
    simp [hdot, leadingBlanks, hc]

/-- The name stands where its column says exactly if it comes first or right behind three dots. -/
theorem name_prefix_iff_marksName {piece : List Char} {p : Parameter} (h : parse? piece = some p) :
    p.name.toList <+: (strip piece).drop (if p.variadic then 3 else 0) ↔
      MarksName (strip piece) := by
  constructor
  · intro hplace
    obtain ⟨c, ds, hcs, hdot, hblank⟩ := exists_cons_of_isIdentifier (isIdentifier_of_parse? h)
    have hc : (strip piece)[if p.variadic then 3 else 0]? = some c := by
      obtain ⟨rest, hrest⟩ := hplace
      rw [← List.head?_drop, ← hrest, hcs]
      rfl
    by_cases hfirst : (strip piece).head? = some '.'
    · -- The name does not start with a dot, so that there must be three of them.
      have hvariadic : p.variadic = true := by
        by_contra hnot
        rw [if_neg hnot, ← List.head?_eq_getElem?, hfirst] at hc
        exact hdot (Option.some.inj hc).symm
      obtain ⟨rest, hrest⟩ := (variadic_iff_of_parse? h).1 hvariadic
      rw [if_pos hvariadic, ← hrest] at hc
      cases rest with
      | nil => simp at hc
      | cons d rest =>
          obtain rfl : d = c := by simpa using hc
          exact .inr ⟨d, rest, hrest.symm, hdot, hblank⟩
    · exact .inl hfirst
  · intro hmarks
    rw [← nameStart_of_marksName h hmarks]
    exact name_prefix_of_parse? h

theorem length_of_parse? {piece : List Char} {p : Parameter} (h : parse? piece = some p) :
    p.name.length + (if p.variadic then 3 else 0) ≤ (strip piece).length := by
  rcases Option.or_eq_some_iff.1 h with h | ⟨-, h⟩
  · exact length_of_parseGrammar? h
  · exact length_of_recover? h

/-- The name stands at position `k` of the text. -/
def NameAt (cs : List Char) (k : Nat) (name : String) : Prop :=
  Span.slice ⟨k, k + name.length⟩ cs = name.toList

theorem nameAt_iff_isPrefix {cs : List Char} {k : Nat} {name : String} :
    NameAt cs k name ↔ name.toList <+: cs.drop k := by
  rw [NameAt, Span.slice, Nat.add_sub_cancel_left, List.prefix_iff_eq_take, String.length_toList,
    eq_comm]

/-- A name inside the trimmed text of a piece is at the same place there and in the list. -/
theorem nameAt_iff_prefix_strip {cs : List Char} {piece : Nat × List Char}
    (hpiece : piece ∈ splitTopLevel (· == ',') cs) {name : String} {k : Nat}
    (hk : name.length + k ≤ (strip piece.2).length) :
    NameAt cs (piece.1 + leadingBlanks piece.2 + k) name ↔
      name.toList <+: (strip piece.2).drop k := by
  have hplaced : strip piece.2 <+: cs.drop (piece.1 + leadingBlanks piece.2) := by
    rw [← List.drop_drop]
    exact (strip_prefix_drop _).trans ((prefix_of_mem_splitTopLevel hpiece).drop _)
  have hinner := hplaced.drop k
  rw [List.drop_drop] at hinner
  rw [nameAt_iff_isPrefix]
  constructor
  · intro hname
    refine List.prefix_of_prefix_length_le hname hinner ?_
    rw [List.length_drop, String.length_toList]
    omega
  · exact fun hname => hname.trans hinner

end Parameter

open Parameter in
/-- Behind the dots of its piece and the blanks that follow these stands the name of each parameter
of a list. It stands at its column exactly if it comes first in its piece or right behind three
dots, as it does in every piece that follows the grammar. -/
theorem parameters_stand_behind_dots {cs : List Char} {column : Nat} {p : Parameter}
    (hp : p ∈ parseList cs column) :
    ∃ piece ∈ splitTopLevel (· == ',') cs, parseAt? (column + piece.1) piece.2 = some p ∧
      NameAt cs (piece.1 + leadingBlanks piece.2 + nameStart (strip piece.2)) p.name ∧
      ∃ k, p.column = some (column + k) ∧ (NameAt cs k p.name ↔ MarksName (strip piece.2)) ∧
        ((parseGrammar? (strip piece.2)).isSome = true → MarksName (strip piece.2)) := by
  obtain ⟨piece, hpiece, hread⟩ := List.mem_filterMap.1 hp
  obtain ⟨q, hq, rfl⟩ := Option.map_eq_some_iff.1 hread
  have hname := name_prefix_of_parse? hq
  have hinside : q.name.length + nameStart (strip piece.2) ≤ (strip piece.2).length := by
    have hlength := hname.length_le
    have hpos : 0 < q.name.length := by
      obtain ⟨c, ds, hcs, -, -⟩ := exists_cons_of_isIdentifier (isIdentifier_of_parse? hq)
      rw [← String.length_toList, hcs]
      exact Nat.succ_pos _
    rw [List.length_drop, String.length_toList] at hlength
    omega
  refine ⟨piece, hpiece, hread, ?_, ?_⟩
  · exact (nameAt_iff_prefix_strip hpiece hinside).2 hname
  · refine ⟨piece.1 + leadingBlanks piece.2 + if q.variadic then 3 else 0, ?_, ?_, ?_⟩
    · simp only [Nat.add_assoc]
    · have hlength := length_of_parse? hq
      rw [← name_prefix_iff_marksName hq]
      exact nameAt_iff_prefix_strip hpiece hlength
    · intro hgrammar
      obtain ⟨r, hr⟩ := Option.isSome_iff_exists.1 hgrammar
      exact marksName_of_follows (follows_of_parseGrammar? hr)

open Parameter in
/-- Behind a parameter that follows the grammar stands one with too few dots. -/
theorem parameters_stand_behind_dots_crowded :
    let cs := " ...rest: Map<K, V>, .. x".toList
    ∃ p ∈ parseList cs 10, (p.name, p.column) = ("x", some 31) ∧
      ∃ piece ∈ splitTopLevel (· == ',') cs, parseAt? (10 + piece.1) piece.2 = some p ∧
        NameAt cs (piece.1 + leadingBlanks piece.2 + nameStart (strip piece.2)) p.name ∧
        ∃ k, p.column = some (10 + k) ∧ (NameAt cs k p.name ↔ MarksName (strip piece.2)) ∧
          ((parseGrammar? (strip piece.2)).isSome = true → MarksName (strip piece.2)) := by
  intro cs
  have hmem : ("x", some 31) ∈ (parseList cs 10).map fun p => (p.name, p.column) := by
    decide +kernel
  obtain ⟨p, hp, heq⟩ := List.mem_map.1 hmem
  exact ⟨p, hp, heq, parameters_stand_behind_dots hp⟩

open Parameter in
/-- With a blank behind its dots a name stands one character behind its column. -/
theorem parameter_behind_blank_misses_column :
    ¬∀ (cs : List Char) (column : Nat), ∀ p ∈ parseList cs column,
      ∃ k, p.column = some (column + k) ∧ NameAt cs k p.name := by
  intro h
  have hmem : ("rest", some 3) ∈
      (parseList "... rest".toList 0).map fun p => (p.name, p.column) := by
    decide +kernel
  obtain ⟨p, hp, heq⟩ := List.mem_map.1 hmem
  obtain ⟨hname, hcolumn⟩ := Prod.mk.inj heq
  obtain ⟨k, hk, hat⟩ := h _ _ p hp
  obtain rfl : 3 = k := by simpa [hcolumn] using hk
  rw [hname] at hat
  exact absurd hat (by unfold NameAt; decide)

end Polyloft
