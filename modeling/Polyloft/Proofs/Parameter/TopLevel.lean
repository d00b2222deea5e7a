import Polyloft.Proofs.Declaration.Column
import Polyloft.Proofs.Parameter.Split

/-!
# Polyloft.Proofs.Parameter.TopLevel

Where a text is cut. The places are told without a scan: in front of a cut the text consists of
whole string literals and of characters outside of them (`OutsideLiterals`), it has closed all
brackets and angle brackets that it opened there (`bracketDepth`, `angleDepth`), and what is cut at
has no meaning as a quote or bracket. Texts are cut at all such places (`mem_cutsBehind_cutFrom`),
and the pieces are what stands between them.

## Proof shape

The scan is compared with this description from any of its states, also from within a literal
(`OutsideFrom`), by induction on the scan. `EndsAtTop` says of the rest of a text up to a cut what
is needed of it from a state on, and there is one lemma for each thing that the scan can do with a
character.
-/

namespace Polyloft

open Polyloft.Text

/-! ### Places of cuts -/

/-- What opens and closes string literals. -/
def quotes : List Char := ['"', '\'']

/-- What opens brackets of any kind. -/
def openings : List Char := ['(', '[', '{']

/-- What closes brackets of any kind. -/
def closings : List Char := [')', ']', '}']

/-- What follows the opening quote of a string literal up to its closing one. A backslash takes the
character behind it along, whatever it is. -/
inductive ClosesLiteral (q : Char) : List Char → Prop where
  | quote : ClosesLiteral q [q]
  | escape {c : Char} {cs : List Char} (h : ClosesLiteral q cs) : ClosesLiteral q ('\\' :: c :: cs)
  | plain {c : Char} {cs : List Char} (hquote : c ≠ q) (hslash : c ≠ '\\')
      (h : ClosesLiteral q cs) : ClosesLiteral q (c :: cs)

/-- Text that consists of whole string literals and of characters outside of literals, with what is
left of it when literals are emptied. -/
inductive OutsideLiterals : List Char → List Char → Prop where
  | nil : OutsideLiterals [] []
  | plain {c : Char} {cs bare : List Char} (hc : c ∉ quotes) (h : OutsideLiterals cs bare) :
      OutsideLiterals (c :: cs) (c :: bare)
  | literal {q : Char} {body cs bare : List Char} (hq : q ∈ quotes) (hbody : ClosesLiteral q body)
      (h : OutsideLiterals cs bare) : OutsideLiterals (q :: (body ++ cs)) (q :: q :: bare)

/-- How many brackets are open behind a text when `n` were in front of it. A closing bracket closes
one that is open, of whatever kind, and does nothing if none is. -/
def bracketDepth (n : Nat) : List Char → Nat
  | [] => n
  | c :: cs =>
    bracketDepth (if c ∈ openings then n + 1 else if c ∈ closings then n - 1 else n) cs

/-- How many angle brackets are open behind a text when `n` were in front of it, and the last
character there was `previous`. One is opened only behind a word character. -/
def angleDepth (previous : Option Char) (n : Nat) : List Char → Nat
  | [] => n
  | c :: cs =>
    let n' := if c = '<' ∧ previous.any isWord then n + 1 else if c = '>' then n - 1 else n
    angleDepth (some c) n' cs

/-- Where no angle bracket is open, `c` behind `previous` has no meaning of its own. -/
def Separates (previous : Option Char) (c : Char) : Prop :=
  c ∉ quotes ++ openings ++ closings ∧ ¬(c = '<' ∧ previous.any isWord = true)

/-- Behind `before` a text can be cut at `sep`: outside of string literals and of all brackets. -/
def IsCut (sep : Char) (before : List Char) : Prop :=
  ∃ bare, OutsideLiterals before bare ∧ bracketDepth 0 bare = 0 ∧ angleDepth none 0 bare = 0 ∧
    Separates bare.getLast? sep

theorem ne_slash_of_mem_quotes {q : Char} (hq : q ∈ quotes) : q ≠ '\\' := by
  rintro rfl
  simp [quotes] at hq

/-! ### From within a text -/

/-- From outside of literals, or from within one that was opened by a quote, to outside of them. -/
def OutsideFrom : Option Char → List Char → List Char → Prop
  | none, cs, bare => OutsideLiterals cs bare
  | some q, cs, bare => ∃ body rest bare', cs = body ++ rest ∧ bare = q :: bare' ∧
      ClosesLiteral q body ∧ OutsideLiterals rest bare'

section

variable {q c d : Char} {cs bare : List Char}

theorem outsideFrom_none_cons : OutsideFrom none (c :: cs) bare ↔
    ∃ bare', bare = c :: bare' ∧ OutsideFrom (if c ∈ quotes then some c else none) cs bare' := by
  constructor
  · intro h
    cases h with
    | plain hc h => exact ⟨_, rfl, by rwa [if_neg hc]⟩
    | literal hq hbody h =>
        refine ⟨_, rfl, ?_⟩
        rw [if_pos hq]
        exact ⟨_, _, _, rfl, rfl, hbody, h⟩
  · rintro ⟨bare', rfl, h⟩
    split at h
    · rename_i hc
      obtain ⟨body, rest, bare'', rfl, rfl, hbody, hrest⟩ := h
      exact .literal hc hbody hrest
    · rename_i hc
      exact .plain hc h

theorem not_outsideFrom_some_nil : ¬OutsideFrom (some q) [] bare := by
  rintro ⟨body, rest, bare', hcs, -, hbody, -⟩
  obtain ⟨rfl, rfl⟩ := List.append_eq_nil_iff.1 hcs.symm
  cases hbody

theorem not_outsideFrom_slash (hq : q ≠ '\\') : ¬OutsideFrom (some q) ['\\'] bare := by
  rintro ⟨body, rest, bare', hcs, -, hbody, -⟩
  cases hbody with
  | quote => exact hq (List.cons.inj hcs).1.symm
  | escape h => simp at hcs
  | plain hquote hslash h => exact hslash (List.cons.inj hcs).1.symm

theorem outsideFrom_escape (hq : q ≠ '\\') :
    OutsideFrom (some q) ('\\' :: d :: cs) bare ↔ OutsideFrom (some q) cs bare := by
  constructor
  · rintro ⟨body, rest, bare', hcs, hbare, hbody, hrest⟩
    cases hbody with
    | quote => exact absurd (List.cons.inj hcs).1.symm hq
    | escape h =>
        obtain ⟨-, rfl⟩ := List.cons.inj (List.cons.inj hcs).2
        exact ⟨_, _, _, rfl, hbare, h, hrest⟩
    | plain hquote hslash h => exact absurd (List.cons.inj hcs).1.symm hslash
  · rintro ⟨body, rest, bare', rfl, hbare, hbody, hrest⟩
    exact ⟨_, _, _, rfl, hbare, .escape hbody, hrest⟩

theorem outsideFrom_closing (hq : q ≠ '\\') :
    OutsideFrom (some q) (q :: cs) bare ↔
      ∃ bare', bare = q :: bare' ∧ OutsideFrom none cs bare' := by
  constructor
  · rintro ⟨body, rest, bare', hcs, hbare, hbody, hrest⟩
    cases hbody with
    | quote =>
        obtain rfl := (List.cons.inj hcs).2
        exact ⟨bare', hbare, hrest⟩
    | escape h => exact absurd (List.cons.inj hcs).1 hq
    | plain hquote hslash h => exact absurd (List.cons.inj hcs).1.symm hquote
  · rintro ⟨bare', rfl, h⟩
    exact ⟨[q], cs, bare', rfl, rfl, .quote, h⟩

theorem outsideFrom_inside (hquote : c ≠ q) (hslash : c ≠ '\\') :
    OutsideFrom (some q) (c :: cs) bare ↔ OutsideFrom (some q) cs bare := by
  constructor
  · rintro ⟨body, rest, bare', hcs, hbare, hbody, hrest⟩
    cases hbody with
    | quote => exact absurd (List.cons.inj hcs).1 hquote
    | escape h => exact absurd (List.cons.inj hcs).1 hslash
    | plain _ _ h =>
        obtain ⟨-, rfl⟩ := List.cons.inj hcs
        exact ⟨_, _, _, rfl, hbare, h, hrest⟩
  · rintro ⟨body, rest, bare', rfl, hbare, hbody, hrest⟩
    exact ⟨_, _, _, rfl, hbare, .plain hquote hslash hbody, hrest⟩

end

/-! ### States of the scan -/

namespace Nesting

variable {s : Nesting} {c sep : Char}

theorem step_fields (s : Nesting) (c : Char) :
    s.step c =
      { depth := if c ∈ openings then s.depth + 1 else if c ∈ closings then s.depth - 1 else s.depth
        angle := if c = '<' ∧ s.previous.any isWord then s.angle + 1
          else if c = '>' then s.angle - 1 else s.angle
        quote := if c ∈ quotes then some c else s.quote
        previous := some c } := by
  by_cases hsign : c ∈ signs
  · simp only [signs, List.mem_cons, List.not_mem_nil, or_false] at hsign
    rcases hsign with rfl | rfl | rfl | rfl | rfl | rfl | rfl | rfl | rfl | rfl
    all_goals simp [step, quotes, openings, closings]
    split <;> rfl
  · rw [step_of_not_mem_signs hsign]
    simp only [signs, List.mem_cons, List.not_mem_nil, or_false, not_or] at hsign
    simp [quotes, openings, closings, hsign]

theorem cutsAt_iff : s.cutsAt (· == sep) c = true ↔
    c = sep ∧ s.depth = 0 ∧ s.angle = 0 ∧ Separates s.previous c := by
  simp only [cutsAt, marks, Bool.and_eq_true, Bool.not_eq_true', Bool.or_eq_false_iff, beq_iff_eq,
    Separates, decide_eq_false_iff_not]
  constructor
  · rintro ⟨⟨⟨rfl, ⟨hsigns, hopens⟩, -⟩, hdepth⟩, hangle⟩
    refine ⟨rfl, hdepth, hangle, hsigns, ?_⟩
    rintro ⟨rfl, hword⟩
    simp [hword] at hopens
  · rintro ⟨rfl, hdepth, hangle, hsigns, hopens⟩
    refine ⟨⟨⟨rfl, ⟨hsigns, ?_⟩, by simp [hangle]⟩, hdepth⟩, hangle⟩
    by_cases hc : c = '<'
    · simpa [hc] using hopens
    · simp [hc]

/-- What is cut away leaves the state as it is. -/
theorem step_of_cutsAt (h : s.cutsAt (· == sep) c = true) :
    s.step c = { s with previous := some c } := by
  obtain ⟨-, -, hangle, hsigns, hopens⟩ := cutsAt_iff.1 h
  simp only [List.mem_append, not_or] at hsigns
  rw [step_fields, if_neg hsigns.1.2, if_neg hsigns.2, if_neg hopens, if_neg hsigns.1.1, hangle]
  simp

theorem mem_quotes_of_step {q : Char} (hquote : s.quote = none)
    (h : (s.step c).quote = some q) : q ∈ quotes := by
  rw [step_fields] at h
  dsimp only at h
  split at h
  · rename_i hc
    rwa [← Option.some.inj h]
  · simp [hquote] at h

end Nesting

/-! ### The rest of a text up to a cut -/

theorem bracketDepth_quote {q : Char} (hq : q ∈ quotes) (n : Nat) (bare : List Char) :
    bracketDepth n (q :: bare) = bracketDepth n bare := by
  simp only [quotes, List.mem_cons, List.not_mem_nil, or_false] at hq
  rcases hq with rfl | rfl
  · rfl
  · rfl

theorem angleDepth_quote {q : Char} (hq : q ∈ quotes) (previous : Option Char) (n : Nat)
    (bare : List Char) : angleDepth previous n (q :: bare) = angleDepth (some q) n bare := by
  simp only [quotes, List.mem_cons, List.not_mem_nil, or_false] at hq
  rcases hq with rfl | rfl
  · simp [angleDepth]
  · simp [angleDepth]

theorem getLast?_cons_or {α : Type} (a : α) (as : List α) (o : Option α) :
    (a :: as).getLast?.or o = as.getLast?.or (some a) := by
  cases h : as.getLast? <;> simp [List.getLast?_cons, h]

/-- The text leads from the state to a place where it can be cut at `sep`. -/
def EndsAtTop (sep : Char) (s : Nesting) (before : List Char) : Prop :=
  ∃ bare, OutsideFrom s.quote before bare ∧ bracketDepth s.depth bare = 0 ∧
    angleDepth s.previous s.angle bare = 0 ∧ Separates (bare.getLast?.or s.previous) sep

theorem isCut_iff_endsAtTop {sep : Char} {before : List Char} :
    IsCut sep before ↔ EndsAtTop sep {} before := by
  simp [IsCut, EndsAtTop, OutsideFrom]

section

variable {sep q c d : Char} {s : Nesting} {before : List Char}

theorem endsAtTop_nil (hquote : s.quote = none) :
    EndsAtTop sep s [] ↔ s.cutsAt (· == sep) sep = true := by
  rw [Nesting.cutsAt_iff, EndsAtTop, hquote]
  constructor
  · rintro ⟨bare, hbare, hdepth, hangle, hsep⟩
    cases hbare
    exact ⟨rfl, hdepth, hangle, hsep⟩
  · rintro ⟨-, hdepth, hangle, hsep⟩
    exact ⟨[], .nil, hdepth, hangle, hsep⟩

theorem not_endsAtTop_nil (hquote : s.quote = some q) : ¬EndsAtTop sep s [] := by
  rintro ⟨bare, hbare, -⟩
  rw [hquote] at hbare
  exact not_outsideFrom_some_nil hbare

theorem not_endsAtTop_slash (hquote : s.quote = some q) (hq : q ∈ quotes) :
    ¬EndsAtTop sep s ['\\'] := by
  rintro ⟨bare, hbare, -⟩
  rw [hquote] at hbare
  exact not_outsideFrom_slash (ne_slash_of_mem_quotes hq) hbare

/-- Outside of literals. -/
theorem endsAtTop_cons (hquote : s.quote = none) :
    EndsAtTop sep s (c :: before) ↔ EndsAtTop sep (s.step c) before := by
  rw [Nesting.step_fields, EndsAtTop, EndsAtTop, hquote]
  constructor
  · rintro ⟨seen, hseen, hdepth, hangle, hsep⟩
    obtain ⟨bare, rfl, hbare⟩ := outsideFrom_none_cons.1 hseen
    rw [getLast?_cons_or] at hsep
    exact ⟨bare, hbare, hdepth, hangle, hsep⟩
  · rintro ⟨bare, hbare, hdepth, hangle, hsep⟩
    refine ⟨c :: bare, outsideFrom_none_cons.2 ⟨bare, rfl, hbare⟩, hdepth, hangle, ?_⟩
    rwa [getLast?_cons_or]

/-- Within a literal the last character does not matter, because there is a quote to come. -/
theorem endsAtTop_previous (hquote : s.quote = some q) (hq : q ∈ quotes) (previous : Option Char) :
    EndsAtTop sep { s with previous } before ↔ EndsAtTop sep s before := by
  refine exists_congr fun bare => and_congr_right fun hbare => ?_
  rw [hquote] at hbare
  obtain ⟨-, -, bare, -, rfl, -⟩ := hbare
  dsimp only
  rw [angleDepth_quote hq, angleDepth_quote hq, getLast?_cons_or, getLast?_cons_or]

theorem endsAtTop_escape (hquote : s.quote = some q) (hq : q ∈ quotes) :
    EndsAtTop sep s ('\\' :: d :: before) ↔
      EndsAtTop sep { s with previous := some d } before := by
  rw [endsAtTop_previous hquote hq (some d), EndsAtTop, EndsAtTop, hquote]
  simp only [outsideFrom_escape (ne_slash_of_mem_quotes hq)]

theorem endsAtTop_literal (hquote : s.quote = some q) (hq : q ∈ quotes) (hc : c ≠ '\\') :
    EndsAtTop sep s (c :: before) ↔
      EndsAtTop sep { s with quote := if c = q then none else some q, previous := some c }
        before := by
  by_cases hcq : c = q
  · subst hcq
    rw [if_pos rfl, EndsAtTop, EndsAtTop, hquote]
    constructor
    · rintro ⟨seen, hseen, hdepth, hangle, hsep⟩
      obtain ⟨bare, rfl, hbare⟩ := (outsideFrom_closing hc).1 hseen
      rw [bracketDepth_quote hq] at hdepth
      rw [angleDepth_quote hq] at hangle
      rw [getLast?_cons_or] at hsep
      exact ⟨bare, hbare, hdepth, hangle, hsep⟩
    · rintro ⟨bare, hbare, hdepth, hangle, hsep⟩
      refine ⟨c :: bare, (outsideFrom_closing hc).2 ⟨bare, rfl, hbare⟩, ?_, ?_, ?_⟩
      · rwa [bracketDepth_quote hq]
      · rwa [angleDepth_quote hq]
      · rwa [getLast?_cons_or]
  · rw [if_neg hcq, ← hquote, endsAtTop_previous hquote hq (some c), EndsAtTop, EndsAtTop, hquote]
    simp only [outsideFrom_inside hcq hc]

end

/-! ### Cuts -/

/-- The places behind the cuts, where all pieces start but the first. -/
def cutsBehind (offset : Nat) (pieces : List (List Char)) : List Nat :=
  ((placePieces offset pieces).map Prod.fst).tail

theorem cutsBehind_consPiece {pieces : List (List Char)} (hne : pieces ≠ []) (c : Char)
    (offset : Nat) : cutsBehind offset (consPiece c pieces) = cutsBehind (offset + 1) pieces := by
  obtain ⟨piece, pieces, rfl⟩ := List.exists_cons_of_ne_nil hne
  simp [cutsBehind, consPiece, placePieces, Nat.add_right_comm, Nat.add_assoc]

theorem cutsBehind_nil_cons {pieces : List (List Char)} (hne : pieces ≠ []) (offset : Nat) :
    cutsBehind offset ([] :: pieces) = (offset + 1) :: cutsBehind (offset + 1) pieces := by
  obtain ⟨piece, pieces, rfl⟩ := List.exists_cons_of_ne_nil hne
  rfl

/-- A separator stands in front or behind. -/
theorem exists_split_cons_iff {P : List Char → Prop} {c sep : Char} {cs : List Char} {n k : Nat} :
    (∃ before after, c :: cs = before ++ sep :: after ∧ k = n + before.length + 1 ∧ P before) ↔
      c = sep ∧ k = n + 1 ∧ P [] ∨
        ∃ before after, cs = before ++ sep :: after ∧ k = n + 1 + before.length + 1 ∧
          P (c :: before) := by
  constructor
  · rintro ⟨before, after, hcs, hk, hP⟩
    cases before with
    | nil => exact .inl ⟨(List.cons.inj hcs).1, hk, hP⟩
    | cons d before =>
        obtain ⟨rfl, htail⟩ := List.cons.inj hcs
        refine .inr ⟨before, after, htail, ?_, hP⟩
        rw [hk, List.length_cons]
        omega
  · rintro (⟨rfl, hk, hP⟩ | ⟨before, after, rfl, hk, hP⟩)
    · exact ⟨[], cs, rfl, hk, hP⟩
    · refine ⟨c :: before, after, rfl, ?_, hP⟩
      rw [hk, List.length_cons]
      omega

open Nesting

/-- A text is cut at all places where it can be cut, and at no others. -/
theorem mem_cutsBehind_cutFrom (sep : Char) (s : Nesting) (cs : List Char)
    (hs : ∀ q, s.quote = some q → q ∈ quotes) (n k : Nat) :
    k ∈ cutsBehind n (cutFrom (· == sep) s cs) ↔
      ∃ before after, cs = before ++ sep :: after ∧ k = n + before.length + 1 ∧
        EndsAtTop sep s before := by
  fun_induction cutFrom (· == sep) s cs generalizing n with
  | case1 s => simp [cutsBehind, placePieces]
  | case2 s q hquote =>
      -- The text ends behind a backslash, so its literal is never closed.
      rw [exists_split_cons_iff]
      simp [cutsBehind, placePieces, not_endsAtTop_nil hquote]
  | case3 s q hquote d ds ih =>
      have hq := hs q hquote
      rw [cutsBehind_consPiece (consPiece_ne_nil _ _), cutsBehind_consPiece (cutFrom_ne_nil _ _ _),
        ih hs, exists_split_cons_iff, exists_split_cons_iff]
      simp only [endsAtTop_escape hquote hq, not_endsAtTop_nil hquote,
        not_endsAtTop_slash hquote hq, and_false, false_or]
  | case4 s c cs q hquote hslash quote ih =>
      have hq := hs q hquote
      have hnext : ∀ q', quote = some q' → q' ∈ quotes := by
        intro q' hq'
        by_cases hcq : c = q
        · simp [quote, hcq] at hq'
        · simp only [quote, if_neg hcq] at hq'
          rwa [← Option.some.inj hq']
      rw [cutsBehind_consPiece (cutFrom_ne_nil _ _ _), ih hnext, exists_split_cons_iff]
      simp only [endsAtTop_literal hquote hq hslash, not_endsAtTop_nil hquote, and_false, false_or]
      rfl
  | case5 s c cs hquote hcut ih =>
      obtain ⟨rfl, -⟩ := cutsAt_iff.1 hcut
      rw [cutsBehind_nil_cons (cutFrom_ne_nil _ _ _), List.mem_cons, ih hs, exists_split_cons_iff]
      simp only [endsAtTop_cons hquote, endsAtTop_nil hquote, step_of_cutsAt hcut, hcut, true_and,
        and_true]
  | case6 s c cs hquote hcut ih =>
      rw [cutsBehind_consPiece (cutFrom_ne_nil _ _ _), ih fun q => mem_quotes_of_step hquote,
        exists_split_cons_iff]
      simp only [endsAtTop_cons hquote, endsAtTop_nil hquote]
      refine (or_iff_right ?_).symm
      rintro ⟨rfl, -, hsep⟩
      exact hcut hsep

/-! ### Pieces -/

variable {isSeparator : Char → Bool} {s : Nesting}

/-- Of the character in front it matters only whether it belongs to a word. -/
theorem cutFrom_previous (hquote : s.quote = none) (hword : s.previous.any isWord = false)
    (cs : List Char) :
    cutFrom isSeparator { s with previous := none } cs = cutFrom isSeparator s cs := by
  cases cs with
  | nil => rfl
  | cons c cs =>
      have hstep : { s with previous := none }.step c = s.step c := by
        simp [step_fields, hword]
      have hcut : { s with previous := none }.cutsAt isSeparator c = s.cutsAt isSeparator c := by
        simp [cutsAt, marks, hword]
      rw [cutFrom_cons (s := s) hquote, cutFrom_cons (s := { s with previous := none }) hquote,
        hstep, hcut]

/-- A piece is a piece on its own where separators do not belong to words. -/
theorem cutFrom_of_mem (hsep : ∀ c, isSeparator c = true → isWord c = false) {cs piece : List Char}
    (h : piece ∈ cutFrom isSeparator {} cs) : cutFrom isSeparator {} piece = [piece] := by
  obtain ⟨first, rest, hcs⟩ := List.exists_cons_of_ne_nil (cutFrom_ne_nil isSeparator {} cs)
  obtain ⟨hfirst, hrest⟩ := cutFrom_piece isSeparator {} cs first rest hcs
  rw [hcs] at h
  rcases List.mem_cons.1 h with rfl | h
  · exact hfirst
  · obtain ⟨s, hs, hprevious, hpiece⟩ := hrest piece h
    have hword : s.previous.any isWord = false := by
      obtain ⟨c, hc, hcsep⟩ := (Option.any_eq_true _ _).1 hprevious
      simpa [hc] using hsep c hcsep
    have hstart : ({} : Nesting) = { s with previous := none } := by
      rw [hs.depth, hs.angle, hs.quote]
    rw [hstart, cutFrom_previous hs.quote hword, hpiece]

theorem mem_starts_iff {sep : Char} {cs : List Char} {k : Nat} :
    k ∈ (splitTopLevel (· == sep) cs).map Prod.fst ↔
      k = 0 ∨ ∃ before after, cs = before ++ sep :: after ∧ k = before.length + 1 ∧
        IsCut sep before := by
  obtain ⟨first, rest, hcs⟩ := List.exists_cons_of_ne_nil (cutFrom_ne_nil (· == sep) {} cs)
  have hcuts := mem_cutsBehind_cutFrom sep {} cs (by simp) 0 k
  simp only [Nat.zero_add, ← isCut_iff_endsAtTop] at hcuts
  rw [← hcuts, splitTopLevel, hcs]
  simp [cutsBehind, placePieces]

/-- Cutting parts a text into pieces. Joined again they are the text, they stand in it one behind
the other, and each at its position. A piece starts at the beginning and behind each separator where
the text can be cut, that is outside of string literals and of all brackets, and nowhere else. A
piece between commas is not cut again. -/
theorem pieces_partition_text (sep : Char) (cs : List Char) :
    joinWith sep ((splitTopLevel (· == sep) cs).map Prod.snd) = cs ∧
    ((splitTopLevel (· == sep) cs).Pairwise fun p q => p.1 + p.2.length < q.1) ∧
    (∀ piece ∈ splitTopLevel (· == sep) cs,
      ∃ before after, cs = before ++ (piece.2 ++ after) ∧ before.length = piece.1) ∧
    (∀ k, k ∈ (splitTopLevel (· == sep) cs).map Prod.fst ↔
      k = 0 ∨ ∃ before after, cs = before ++ sep :: after ∧ k = before.length + 1 ∧
        IsCut sep before) ∧
    ∀ piece ∈ splitTopLevel (· == ',') cs, splitTopLevel (· == ',') piece.2 = [(0, piece.2)] := by
  refine ⟨?_, pairwise_placePieces 0 _, ?_, fun k => mem_starts_iff, ?_⟩
  · rw [splitTopLevel, map_snd_placePieces, joinWith_cutFrom]
  · intro piece hpiece
    obtain ⟨after, hafter⟩ := prefix_of_mem_splitTopLevel hpiece
    have hstop := stop_of_mem_splitTopLevel hpiece
    refine ⟨cs.take piece.1, after, ?_, ?_⟩
    · rw [hafter, List.take_append_drop]
    · rw [List.length_take]
      omega
  · intro piece hpiece
    have hmem : piece.2 ∈ cutFrom (· == ',') {} cs := by
      rw [← map_snd_placePieces 0 (cutFrom (· == ',') {} cs)]
      exact List.mem_map_of_mem hpiece
    have hcomma : ∀ c, (c == ',') = true → isWord c = false := by
      intro c hc
      rw [beq_iff_eq.1 hc]
      decide
    rw [splitTopLevel, cutFrom_of_mem hcomma hmem]
    rfl

/-- An angle bracket nests behind a word only, and a literal that is never closed keeps the rest of
the text. -/
example :
    (splitTopLevel (· == ',') "m: Map<K, V> = f(\"),\\\"\", a), b < c, 'd, e".toList).map
      (fun piece => (piece.1, String.ofList piece.2)) =
        [(0, "m: Map<K, V> = f(\"),\\\"\", a)"), (28, " b < c"), (35, " 'd, e")] := by
  decide +kernel

end Polyloft
