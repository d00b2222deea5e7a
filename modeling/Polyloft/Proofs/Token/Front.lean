import Polyloft.Proofs.Comment.Scan

/-!
# Polyloft.Proofs.Token.Front

How far a lexeme looks. A lexeme that is neither a comment nor a string literal is found from the
run of characters at the head of the text that such a lexeme can go on with: blanks, quotes and
slashes end it (`goesOn`). Two texts that are the same up to the end of such a run
(`SameFront`) therefore have the same lexeme at their head (`SameFront.at_eq`), whatever stands
behind. Blanking what stands behind, or cutting it off, keeps the front of a text.
-/

namespace Polyloft

open Polyloft.Text Region

/-! ### Literals and numbers -/

theorem closingQuote?_cons {c : Char} (hc : c ≠ '\\') (quote : Char) (cs : List Char) :
    closingQuote? quote (c :: cs) =
      if c = quote then some 1 else (closingQuote? quote cs).map (· + 1) := by
  rw [closingQuote?.eq_def]
  split <;> simp_all

/-- Where a string literal ends does not depend on what follows. -/
theorem closingQuote?_take_append {quote : Char} {cs : List Char} {n : Nat}
    (h : closingQuote? quote cs = some n) (rest : List Char) :
    closingQuote? quote (cs.take n ++ rest) = some n := by
  fun_induction closingQuote? quote cs generalizing n with
  | case1 => simp at h
  | case2 => simp at h
  | case3 c cs ih =>
      obtain ⟨m, hm, rfl⟩ := Option.map_eq_some_iff.1 h
      simp [closingQuote?, ih hm]
  | case4 cs hlast hescape =>
      obtain rfl := Option.some.inj h
      have hback := ne_backslash hlast hescape
      simp [closingQuote?_cons hback]
  | case5 c cs hlast hescape hne ih =>
      obtain ⟨m, hm, rfl⟩ := Option.map_eq_some_iff.1 h
      have hback := ne_backslash hlast hescape
      simp [closingQuote?_cons hback, hne, ih hm]

namespace Lexeme

theorem number_eq (cs : List Char) :
    number cs =
      if (cs.dropWhile isDecimal).head? = some '.' ∧
          (cs.dropWhile isDecimal).tail.head?.any isDecimal then
        ⟨.float, (cs.takeWhile isDecimal).length + 2 +
          ((cs.dropWhile isDecimal).tail.tail.takeWhile isDecimal).length, true, false⟩
      else ⟨.int, (cs.takeWhile isDecimal).length, true, false⟩ := by
  unfold number
  dsimp only
  split
  · rename_i d ds hrest
    simp [hrest]
  · rename_i hrest
    rw [if_neg]
    rintro ⟨hpoint, hdigit⟩
    obtain ⟨ds, hds⟩ := List.head?_eq_some_iff.1 hpoint
    obtain ⟨d, hd, -⟩ := (Option.any_eq_true ..).1 hdigit
    rw [hds, List.tail_cons] at hd
    obtain ⟨es, rfl⟩ := List.head?_eq_some_iff.1 hd
    exact hrest d es hds

end Lexeme

/-! ### Fronts -/

/-- A character that can stand in a lexeme, behind its first, which is neither a comment nor a
string literal. -/
def goesOn (c : Char) : Bool :=
  isPlain c && !isSkipped c

theorem goesOn_of {p : Char → Bool} (h : "/\"\' \t\r\x0c\x0b".toList.any p = false) {c : Char}
    (hc : p c = true) : goesOn c = true := by
  have hmem : c ∉ "/\"\' \t\r\x0c\x0b".toList := by
    intro hmem
    rw [List.any_eq_false] at h
    exact h c hmem hc
  simpa [goesOn, isPlain, isSkipped, and_assoc] using hmem

theorem goesOn_of_isWord {c : Char} (h : isWord c = true) : goesOn c = true :=
  goesOn_of (by decide +kernel) h

theorem goesOn_of_isDecimal {c : Char} (h : isDecimal c = true) : goesOn c = true :=
  goesOn_of (by decide +kernel) h

theorem goesOn_eq_false_of_isSkipped {c : Char} (h : isSkipped c = true) : goesOn c = false := by
  rw [goesOn, h, Bool.not_true, Bool.and_false]

theorem goesOn_eq_false_of_not_isPlain {c : Char} (h : isPlain c = false) : goesOn c = false := by
  rw [goesOn, h, Bool.false_and]

/-- Only the first character of an operator ends a lexeme. -/
theorem goesOn_of_mem_operators {op : String} (hop : op ∈ operators) {d : Char}
    (hd : d ∈ op.toList.tail) : goesOn d = true := by
  have h : (operators.all fun op => op.toList.tail.all goesOn) = true := by decide +kernel
  exact List.all_eq_true.1 (List.all_eq_true.1 h op hop) d hd

/-- The texts are the same up to a place where no lexeme goes on in either. -/
inductive SameFront : List Char → List Char → Prop where
  | stop {cs ds : List Char} (hcs : cs.head?.any goesOn = false)
      (hds : ds.head?.any goesOn = false) : SameFront cs ds
  | cons {cs ds : List Char} (c : Char) (h : SameFront cs ds) : SameFront (c :: cs) (c :: ds)

namespace SameFront

variable {cs ds : List Char} {p : Char → Bool}

theorem append_left (w : List Char) (h : SameFront cs ds) : SameFront (w ++ cs) (w ++ ds) := by
  induction w with
  | nil => exact h
  | cons c w ih => exact .cons c ih

/-- What stands behind separators is not seen. -/
theorem append_of_isSkipped (cs : List Char) (hds : ∀ c ∈ ds, isSkipped c = true) :
    SameFront (cs ++ ds) cs := by
  have hend : SameFront ds [] := by
    refine .stop ?_ rfl
    cases ds with
    | nil => rfl
    | cons d ds => exact goesOn_eq_false_of_isSkipped (hds d List.mem_cons_self)
  simpa using hend.append_left cs

/-! ### Runs -/

theorem any_eq_false (hp : ∀ c, p c = true → goesOn c = true) (h : cs.head?.any goesOn = false) :
    cs.head?.any p = false := by
  cases cs with
  | nil => rfl
  | cons c cs =>
      rw [List.head?_cons, Option.any_some] at h ⊢
      rw [Bool.eq_false_iff] at h ⊢
      exact fun hc => h (hp c hc)

theorem head?_any (h : SameFront cs ds) (hp : ∀ c, p c = true → goesOn c = true) :
    cs.head?.any p = ds.head?.any p := by
  cases h with
  | stop hcs hds => rw [any_eq_false hp hcs, any_eq_false hp hds]
  | cons c h => rfl

/-- Behind a character that goes on, the fronts are the same too. -/
theorem tail (h : SameFront cs ds) (hc : cs.head?.any goesOn = true) :
    SameFront cs.tail ds.tail := by
  cases h with
  | stop hcs hds => rw [hcs] at hc; cases hc
  | cons c h => exact h

theorem span (h : SameFront cs ds) (hp : ∀ c, p c = true → goesOn c = true) :
    cs.takeWhile p = ds.takeWhile p ∧ SameFront (cs.dropWhile p) (ds.dropWhile p) := by
  have hstop {cs : List Char} (h : cs.head?.any goesOn = false) :
      cs.takeWhile p = [] ∧ cs.dropWhile p = cs := by
    cases cs with
    | nil => exact ⟨rfl, rfl⟩
    | cons c cs =>
        have hc : ¬p c = true := Bool.eq_false_iff.1 (any_eq_false hp h)
        exact ⟨List.takeWhile_cons_of_neg hc, List.dropWhile_cons_of_neg hc⟩
  induction h with
  | stop hcs hds =>
      rw [(hstop hcs).1, (hstop hcs).2, (hstop hds).1, (hstop hds).2]
      exact ⟨rfl, .stop hcs hds⟩
  | cons c h ih =>
      by_cases hc : p c = true
      · rw [List.takeWhile_cons_of_pos hc, List.takeWhile_cons_of_pos hc,
          List.dropWhile_cons_of_pos hc, List.dropWhile_cons_of_pos hc, ih.1]
        exact ⟨rfl, ih.2⟩
      · rw [List.takeWhile_cons_of_neg hc, List.takeWhile_cons_of_neg hc,
          List.dropWhile_cons_of_neg hc, List.dropWhile_cons_of_neg hc]
        exact ⟨rfl, .cons c h⟩

theorem isPrefixOf_eq (h : SameFront cs ds) {w : List Char} (hw : ∀ c ∈ w, goesOn c = true) :
    w.isPrefixOf cs = w.isPrefixOf ds := by
  induction w generalizing cs ds with
  | nil => simp
  | cons d w ih =>
      rw [List.forall_mem_cons] at hw
      have hstop {cs : List Char} (h : cs.head?.any goesOn = false) :
          (d :: w).isPrefixOf cs = false := by
        cases cs with
        | nil => rfl
        | cons c cs =>
            have hne : d ≠ c := by
              rintro rfl
              simp [hw.1] at h
            rw [List.isPrefixOf, beq_eq_false_iff_ne.2 hne, Bool.false_and]
      cases h with
      | stop hcs hds => rw [hstop hcs, hstop hds]
      | cons c h => rw [List.isPrefixOf, List.isPrefixOf, ih h hw.2]

/-! ### Lexemes -/

theorem number_eq (h : SameFront cs ds) : Lexeme.number cs = Lexeme.number ds := by
  have hdigits {cs ds : List Char} (h : SameFront cs ds) :=
    h.span (p := isDecimal) fun _ => goesOn_of_isDecimal
  obtain ⟨hwhole, hrest⟩ := hdigits h
  rw [Lexeme.number_eq, Lexeme.number_eq, hwhole]
  generalize cs.dropWhile isDecimal = cs at hrest
  generalize ds.dropWhile isDecimal = ds at hrest
  cases hrest with
  | stop hcs hds =>
      have hpoint {cs : List Char} (h : cs.head?.any goesOn = false) : cs.head? ≠ some '.' := by
        intro hhead
        rw [hhead] at h
        exact absurd h (by decide)
      rw [if_neg fun h => hpoint hcs h.1, if_neg fun h => hpoint hds h.1]
  | cons c h =>
      rw [List.head?_cons, List.tail_cons, List.head?_cons, List.tail_cons,
        h.head?_any fun _ => goesOn_of_isDecimal]
      refine ite_congr rfl (fun hfraction => ?_) fun _ => rfl
      have hnext := hfraction.2
      rw [← h.head?_any fun _ => goesOn_of_isDecimal] at hnext
      obtain ⟨d, hd, hdecimal⟩ := (Option.any_eq_true ..).1 hnext
      rw [(hdigits (h.tail (by rw [hd]; exact goesOn_of_isDecimal hdecimal))).1]

theorem sign_eq (h : SameFront cs ds) (c : Char) : Lexeme.sign c cs = Lexeme.sign c ds := by
  have hoperator : operatorAt? (c :: cs) = operatorAt? (c :: ds) := by
    rw [operatorAt?, operatorAt?, ← List.head?_filter, ← List.head?_filter]
    congr 1
    refine List.filter_congr fun op hop => ?_
    have htail : ∀ d ∈ op.toList.tail, goesOn d = true := fun d => goesOn_of_mem_operators hop
    cases hchars : op.toList with
    | nil => rfl
    | cons d es =>
        rw [hchars, List.tail_cons] at htail
        rw [List.isPrefixOf, List.isPrefixOf, h.isPrefixOf_eq htail]
  rw [Lexeme.sign, Lexeme.sign, hoperator]

/-- Only a comment or a string literal looks behind the front of a text. -/
theorem at_eq (h : SameFront cs ds) {c : Char} (hcs : startsComment c cs.head? = false)
    (hds : startsComment c ds.head? = false) (hquote : ¬(c = '"' ∨ c = '\'')) :
    Lexeme.at c cs = Lexeme.at c ds := by
  have hword {cs ds : List Char} (h : SameFront cs ds) :
      cs.takeWhile isWord = ds.takeWhile isWord :=
    (h.span fun _ => goesOn_of_isWord).1
  have hstart (d : Char) (hd : isNameStart d = true) : goesOn d = true :=
    goesOn_of_isWord (isWord_of_isNameStart hd)
  rw [Lexeme.at_eq, Lexeme.at_eq, hcs, hds, if_neg Bool.false_ne_true, if_neg Bool.false_ne_true,
    if_neg hquote, if_neg hquote, h.number_eq, h.sign_eq, Lexeme.name, Lexeme.name, hword h,
    h.head?_any hstart]
  -- An annotation looks at the name behind its first character.
  refine ite_congr rfl (fun _ => ite_congr rfl (fun hname => ?_) fun _ => rfl) fun _ => rfl
  rw [← h.head?_any hstart] at hname
  obtain ⟨d, hd, hname⟩ := (Option.any_eq_true ..).1 hname
  rw [hword (h.tail (by rw [hd]; exact hstart d hname))]

end SameFront

/-- A lexeme that is no comment stays when what stands behind it is replaced by a text with the same
front. -/
theorem Lexeme.at_take_append {c : Char} {cs rest : List Char}
    (hkind : (Lexeme.at c cs).kind ≠ .comment)
    (hrest : SameFront rest (cs.drop (Lexeme.at c cs).tail))
    (hstart : startsComment c (cs.drop (Lexeme.at c cs).tail).head? = false →
      startsComment c rest.head? = false)
    (hnil : cs.drop (Lexeme.at c cs).tail = [] → rest = []) :
    Lexeme.at c (cs.take (Lexeme.at c cs).tail ++ rest) = Lexeme.at c cs := by
  have hreads := reads_at c cs
  generalize hx : Lexeme.at c cs = x at *
  cases hreads with
  | lineComment | closedComment | openComment => exact absurd rfl hkind
  | closedString hquote hclose =>
      have hcode (following : Option Char) : startsComment c following = false := by
        rcases hquote with rfl | rfl <;> rfl
      have hat : c ≠ '@' := by rcases hquote with rfl | rfl <;> decide
      rw [at_eq, hcode, if_neg hat, if_pos hquote, closingQuote?_take_append hclose]
      rfl
  | openString =>
      rw [hnil (List.drop_length ..), List.take_length, List.append_nil, hx]
  | plain hcode hquote =>
      have hfront := hrest.append_left (cs.take x.tail)
      rw [List.take_append_drop] at hfront
      have hcode' : startsComment c (cs.take x.tail ++ rest).head? = false := by
        cases htake : cs.take x.tail with
        | nil =>
            rw [← List.take_append_drop x.tail cs, htake] at hcode
            exact hstart hcode
        | cons d ds =>
            rw [← List.take_append_drop x.tail cs, htake] at hcode
            exact hcode
      rw [hfront.at_eq hcode' hcode hquote, hx]

end Polyloft
