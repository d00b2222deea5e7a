import Polyloft.Proofs.Place.Declaration

/-!
# Polyloft.Proofs.Parameter.Split

Cutting at the separators outside of brackets and string literals. Joined again, the pieces of a
text give the text, and each piece stands at its position. No cut is made inside of a piece if it is
read on its own from where pieces start: outside of all brackets and literals
(`exists_of_mem_cutFrom`). Texts in which no cut is made from there on, and which lead back there,
can be joined: they are the pieces of what they are joined to (`cutFrom_joinWith`).
-/

namespace Polyloft

open Polyloft.Text

/-! ### Joined pieces -/

theorem joinWith_cutFrom (sep : Char) (s : Nesting) (cs : List Char) :
    joinWith sep (cutFrom (· == sep) s cs) = cs := by
  fun_induction cutFrom (· == sep) s cs with
  | case1 => rfl
  | case2 => rfl
  | case3 s q hquote d ds ih =>
      rw [joinWith_consPiece (consPiece_ne_nil _ _), joinWith_consPiece (cutFrom_ne_nil _ _ _), ih]
  | case4 s c cs q hquote hslash quote ih =>
      rw [joinWith_consPiece (cutFrom_ne_nil _ _ _), ih]
  | case5 s c cs hquote hcut ih =>
      have hc : c = sep := by simp_all [Nesting.cutsAt]
      rw [joinWith_cons (cutFrom_ne_nil _ _ _), ih, hc]
      rfl
  | case6 s c cs hquote hcut ih =>
      rw [joinWith_consPiece (cutFrom_ne_nil _ _ _), ih]

theorem map_snd_placePieces (offset : Nat) (pieces : List (List Char)) :
    (placePieces offset pieces).map Prod.snd = pieces := by
  induction pieces generalizing offset with
  | nil => rfl
  | cons piece pieces ih => rw [placePieces, List.map_cons, ih]

theorem prefix_of_mem_placePieces (sep : Char) {offset : Nat} {pieces : List (List Char)}
    {piece : Nat × List Char} (h : piece ∈ placePieces offset pieces) :
    ∃ k, piece.1 = offset + k ∧ piece.2 <+: (joinWith sep pieces).drop k := by
  induction pieces generalizing offset with
  | nil => simp [placePieces] at h
  | cons first pieces ih =>
      rcases List.mem_cons.1 h with rfl | h
      · refine ⟨0, rfl, ?_⟩
        cases pieces with
        | nil => exact List.prefix_rfl
        | cons second pieces => exact List.prefix_append first _
      · obtain ⟨k, hk, hplace⟩ := ih h
        have hne : pieces ≠ [] := by
          rintro rfl
          simp [placePieces] at h
        refine ⟨first.length + 1 + k, by omega, ?_⟩
        rwa [joinWith_cons hne, Nat.add_assoc, ← List.drop_drop, List.drop_left, Nat.add_comm 1,
          List.drop_succ_cons]

/-- A piece stands at its position. -/
theorem prefix_of_mem_splitTopLevel {sep : Char} {cs : List Char} {piece : Nat × List Char}
    (h : piece ∈ splitTopLevel (· == sep) cs) : piece.2 <+: cs.drop piece.1 := by
  obtain ⟨k, hk, hplace⟩ := prefix_of_mem_placePieces sep h
  rwa [joinWith_cutFrom, ← Nat.zero_add k, ← hk] at hplace

/-! ### Nesting -/

namespace Nesting

variable {isSeparator : Char → Bool} {s : Nesting} {c : Char} {cs ds : List Char}

/-- Outside of all brackets and string literals. -/
structure AtTop (s : Nesting) : Prop where
  depth : s.depth = 0
  angle : s.angle = 0
  quote : s.quote = none

/-- The characters that can have a meaning for nesting. -/
def signs : List Char :=
  ['"', '\'', '(', '[', '{', ')', ']', '}', '<', '>']

/-- Nothing opens a string literal. -/
def Unquoted (cs : List Char) : Prop :=
  ∀ c ∈ cs, c ≠ '"' ∧ c ≠ '\''

/-- No cut is made in the text, read from this state on as text without quotes. -/
def Keeps (isSeparator : Char → Bool) (s : Nesting) : List Char → Prop
  | [] => True
  | c :: cs => s.cutsAt isSeparator c = false ∧ (s.step c).Keeps isSeparator cs

theorem step_of_not_mem_signs (hc : c ∉ signs) : s.step c = { s with previous := some c } := by
  simp only [signs, List.mem_cons, List.not_mem_nil, or_false, not_or] at hc
  simp [step, hc]

theorem step_quote (hc : c ≠ '"' ∧ c ≠ '\'') : (s.step c).quote = s.quote := by
  simp only [step, hc, or_self, if_false]
  repeat' split
  all_goals rfl

/-- The character before counts for an opening angle bracket only. -/
theorem step_previous (hc : c ≠ '<') (d : Option Char) :
    { s with previous := d }.step c = s.step c := by
  simp [step, hc]

theorem cutsAt_previous (hc : c ≠ '<') (d : Option Char) :
    { s with previous := d }.cutsAt isSeparator c = s.cutsAt isSeparator c := by
  simp [cutsAt, marks, beq_eq_false_iff_ne.2 hc]

theorem keeps_append : s.Keeps isSeparator (cs ++ ds) ↔
    s.Keeps isSeparator cs ∧ (cs.foldl step s).Keeps isSeparator ds := by
  induction cs generalizing s with
  | nil => simp [Keeps]
  | cons c cs ih => simp only [List.cons_append, Keeps, List.foldl_cons, ih, and_assoc]

theorem keeps_of_plain (h : ∀ c ∈ cs, isSeparator c = false) : s.Keeps isSeparator cs := by
  induction cs generalizing s with
  | nil => trivial
  | cons c cs ih =>
      refine ⟨?_, ih fun d hd => h d (List.mem_cons_of_mem _ hd)⟩
      simp [cutsAt, h c (List.mem_cons_self ..)]

end Nesting

variable {isSeparator : Char → Bool} {s : Nesting} {cs rest : List Char}

open Nesting

theorem cutFrom_cons (hquote : s.quote = none) (c : Char) (cs : List Char) :
    cutFrom isSeparator s (c :: cs) =
      if s.cutsAt isSeparator c then [] :: cutFrom isSeparator { s with previous := some c } cs
      else consPiece c (cutFrom isSeparator (s.step c) cs) := by
  rw [cutFrom.eq_def]
  simp only [hquote]

/-- A character goes to the first piece unless it is cut away. -/
theorem consPiece_eq_cons {c : Char} {pieces rest : List (List Char)} {first : List Char}
    (hne : pieces ≠ []) (h : consPiece c pieces = first :: rest) :
    ∃ piece, first = c :: piece ∧ pieces = piece :: rest := by
  cases pieces with
  | nil => exact absurd rfl hne
  | cons piece pieces =>
      obtain ⟨hfirst, hrest⟩ := List.cons.inj h
      exact ⟨piece, hfirst.symm, by rw [hrest]⟩

/-- Where no cut is made, a text belongs to one piece. -/
theorem cutFrom_append (hquote : s.quote = none) (hcs : Unquoted cs)
    (hkeeps : s.Keeps isSeparator cs) :
    cutFrom isSeparator s (cs ++ rest) =
      cs.foldr consPiece (cutFrom isSeparator (cs.foldl step s) rest) := by
  induction cs generalizing s with
  | nil => rfl
  | cons c cs ih =>
      have hc := hcs c (List.mem_cons_self ..)
      have hstep : (s.step c).quote = none := by rw [step_quote hc, hquote]
      rw [List.cons_append, cutFrom_cons hquote, if_neg (by simp [hkeeps.1]), List.foldr_cons,
        List.foldl_cons, ih hstep (fun d hd => hcs d (List.mem_cons_of_mem _ hd)) hkeeps.2]

theorem keeps_of_cutFrom (hquote : s.quote = none) (hcs : Unquoted cs)
    (h : cutFrom isSeparator s (cs ++ rest) = [cs ++ rest]) : s.Keeps isSeparator cs := by
  induction cs generalizing s with
  | nil => trivial
  | cons c cs ih =>
      have hc := hcs c (List.mem_cons_self ..)
      have hstep : (s.step c).quote = none := by rw [step_quote hc, hquote]
      rw [List.cons_append, cutFrom_cons hquote] at h
      split at h
      · simp at h
      · rename_i hcut
        obtain ⟨piece, hpiece, hwhole⟩ := consPiece_eq_cons (cutFrom_ne_nil _ _ _) h
        rw [← (List.cons.inj hpiece).2] at hwhole
        exact ⟨by simpa using hcut, ih hstep (fun d hd => hcs d (List.mem_cons_of_mem _ hd)) hwhole⟩

/-- The first piece is one piece on its own, and each other piece is one outside of brackets and
literals, behind a separator. -/
theorem cutFrom_piece (isSeparator : Char → Bool) (s : Nesting) (cs : List Char) :
    ∀ first rest, cutFrom isSeparator s cs = first :: rest →
      cutFrom isSeparator s first = [first] ∧
        ∀ piece ∈ rest, ∃ s' : Nesting, s'.AtTop ∧ s'.previous.any isSeparator = true ∧
          cutFrom isSeparator s' piece = [piece] := by
  fun_induction cutFrom isSeparator s cs with
  | case1 s =>
      intro first rest h
      obtain ⟨rfl, rfl⟩ := List.cons.inj h
      exact ⟨rfl, by simp⟩
  | case2 s q hquote =>
      intro first rest h
      obtain ⟨rfl, rfl⟩ := List.cons.inj h
      refine ⟨?_, by simp⟩
      rw [cutFrom.eq_def]
      simp only [hquote, if_true]
  | case3 s q hquote d ds ih =>
      intro first rest h
      obtain ⟨second, rfl, hsecond⟩ := consPiece_eq_cons (consPiece_ne_nil _ _) h
      obtain ⟨piece, rfl, hpiece⟩ := consPiece_eq_cons (cutFrom_ne_nil _ _ _) hsecond
      obtain ⟨hfirst, hrest⟩ := ih _ _ hpiece
      refine ⟨?_, hrest⟩
      rw [hquote] at hfirst
      rw [cutFrom.eq_def]
      simp only [hquote, if_true]
      rw [hfirst, consPiece, consPiece]
  | case4 s c cs q hquote hslash quote ih =>
      intro first rest h
      obtain ⟨piece, rfl, hpiece⟩ := consPiece_eq_cons (cutFrom_ne_nil _ _ _) h
      obtain ⟨hfirst, hrest⟩ := ih _ _ hpiece
      refine ⟨?_, hrest⟩
      rw [cutFrom.eq_def]
      simp only [hquote, if_neg hslash]
      rw [hfirst, consPiece]
  | case5 s c cs hquote hcut ih =>
      intro first rest h
      obtain ⟨rfl, rfl⟩ := List.cons.inj h
      refine ⟨rfl, ?_⟩
      simp only [cutsAt, Bool.and_eq_true, beq_iff_eq] at hcut
      have htop : { s with previous := some c }.AtTop := ⟨hcut.1.2, hcut.2, hquote⟩
      intro piece hpiece
      obtain ⟨second, rest, hcs⟩ := List.exists_cons_of_ne_nil
        (cutFrom_ne_nil isSeparator { s with previous := some c } cs)
      obtain ⟨hsecond, hrest⟩ := ih _ _ hcs
      rw [hcs] at hpiece
      rcases List.mem_cons.1 hpiece with rfl | hpiece
      · exact ⟨_, htop, hcut.1.1.1, hsecond⟩
      · exact hrest piece hpiece
  | case6 s c cs hquote hcut ih =>
      intro first rest h
      obtain ⟨piece, rfl, hpiece⟩ := consPiece_eq_cons (cutFrom_ne_nil _ _ _) h
      obtain ⟨hfirst, hrest⟩ := ih _ _ hpiece
      refine ⟨?_, hrest⟩
      rw [cutFrom_cons hquote, if_neg hcut, hfirst, consPiece]

theorem exists_of_mem_cutFrom (hs : s.AtTop) {piece : List Char}
    (h : piece ∈ cutFrom isSeparator s cs) :
    ∃ s' : Nesting, s'.AtTop ∧ cutFrom isSeparator s' piece = [piece] := by
  obtain ⟨first, rest, hcs⟩ := List.exists_cons_of_ne_nil (cutFrom_ne_nil isSeparator s cs)
  obtain ⟨hfirst, hrest⟩ := cutFrom_piece isSeparator s cs first rest hcs
  rw [hcs] at h
  rcases List.mem_cons.1 h with rfl | h
  · exact ⟨s, hs, hfirst⟩
  · obtain ⟨s', hs', -, hpiece⟩ := hrest piece h
    exact ⟨s', hs', hpiece⟩

/-! ### Texts that can be joined -/

namespace Nesting

/-- Outside of string literals the text leaves as many brackets open as there were before it. Of
angle brackets there can be fewer, because one of them closes whatever stands before it. -/
structure Settles (cs : List Char) : Prop where
  unquoted : Unquoted cs
  depth : ∀ s : Nesting, (cs.foldl step s).depth = s.depth
  angle : ∀ s : Nesting, (cs.foldl step s).angle ≤ s.angle

theorem foldl_step_quote (h : Unquoted cs) : (cs.foldl step s).quote = s.quote := by
  induction cs generalizing s with
  | nil => rfl
  | cons c cs ih =>
      rw [List.foldl_cons, ih fun d hd => h d (List.mem_cons_of_mem _ hd),
        step_quote (h c (List.mem_cons_self ..))]

theorem Settles.atTop (h : Settles cs) (hs : s.AtTop) : (cs.foldl step s).AtTop where
  depth := by rw [h.depth, hs.depth]
  angle := Nat.le_zero.1 (hs.angle ▸ h.angle s)
  quote := by rw [foldl_step_quote h.unquoted, hs.quote]

theorem Settles.append (hcs : Settles cs) (hds : Settles ds) : Settles (cs ++ ds) where
  unquoted := by
    intro c hc
    rcases List.mem_append.1 hc with hc | hc
    · exact hcs.unquoted c hc
    · exact hds.unquoted c hc
  depth s := by rw [List.foldl_append, hds.depth, hcs.depth]
  angle s := by
    rw [List.foldl_append]
    exact Nat.le_trans (hds.angle _) (hcs.angle s)

theorem settles_of_not_mem_signs (h : ∀ c ∈ cs, c ∉ signs) : Settles cs := by
  induction cs with
  | nil => exact ⟨by simp [Unquoted], fun s => rfl, fun s => Nat.le_refl _⟩
  | cons c cs ih =>
      have hc := h c (List.mem_cons_self ..)
      obtain ⟨hunquoted, hdepth, hangle⟩ := ih fun d hd => h d (List.mem_cons_of_mem _ hd)
      refine ⟨?_, fun s => ?_, fun s => ?_⟩
      · have hquotes : c ≠ '"' ∧ c ≠ '\'' := by
          constructor
          · rintro rfl
            exact hc (by decide)
          · rintro rfl
            exact hc (by decide)
        exact List.forall_mem_cons.2 ⟨hquotes, hunquoted⟩
      · rw [List.foldl_cons, hdepth, step_of_not_mem_signs hc]
      · rw [List.foldl_cons, step_of_not_mem_signs hc]
        exact hangle _

/-- A text that can be a piece: from where pieces start, no cut is made in it, and it leads back to
where the next piece can start. -/
structure IsPiece (isSeparator : Char → Bool) (cs : List Char) : Prop where
  settles : Settles cs
  keeps : ∀ s : Nesting, s.AtTop → s.Keeps isSeparator cs

theorem IsPiece.append (hcs : IsPiece isSeparator cs) (hds : IsPiece isSeparator ds) :
    IsPiece isSeparator (cs ++ ds) where
  settles := hcs.settles.append hds.settles
  keeps s hs := keeps_append.2 ⟨hcs.keeps s hs, hds.keeps _ (hcs.settles.atTop hs)⟩

theorem isPiece_of_plain (h : ∀ c ∈ cs, c ∉ signs ∧ isSeparator c = false) :
    IsPiece isSeparator cs where
  settles := settles_of_not_mem_signs fun c hc => (h c hc).1
  keeps _ _ := keeps_of_plain fun c hc => (h c hc).2

/-- For what does not start with an angle bracket it is enough to start in one place. -/
theorem isPiece_of_keeps (hsettles : Settles cs) (hfirst : cs.head? ≠ some '<') (hs : s.AtTop)
    (hkeeps : s.Keeps isSeparator cs) : IsPiece isSeparator cs where
  settles := hsettles
  keeps s' hs' := by
    cases cs with
    | nil => trivial
    | cons c cs =>
        have hc : c ≠ '<' := by simpa using hfirst
        have heq : s' = { s with previous := s'.previous } := by
          obtain ⟨depth, angle, quote, previous⟩ := s'
          obtain ⟨rfl, rfl, rfl⟩ := hs'
          rw [hs.depth, hs.angle, hs.quote]
        rw [heq, Keeps, cutsAt_previous hc, step_previous hc]
        exact hkeeps

end Nesting

theorem foldr_consPiece (cs : List Char) (pieces : List (List Char)) :
    cs.foldr consPiece ([] :: pieces) = cs :: pieces := by
  induction cs with
  | nil => rfl
  | cons c cs ih => rw [List.foldr_cons, ih, consPiece]

/-- Texts that can be pieces are the pieces of what they are joined to. -/
theorem cutFrom_joinWith {sep : Char} (hsep : sep ∉ signs) (hs : s.AtTop)
    {pieces : List (List Char)} (hne : pieces ≠ [])
    (h : ∀ piece ∈ pieces, IsPiece (· == sep) piece) :
    cutFrom (· == sep) s (joinWith sep pieces) = pieces := by
  induction pieces generalizing s with
  | nil => exact absurd rfl hne
  | cons piece pieces ih =>
      obtain ⟨hsettles, hkeeps⟩ := h piece (List.mem_cons_self ..)
      have htop := hsettles.atTop hs
      have hfirst (rest : List Char) : cutFrom (· == sep) s (piece ++ rest) =
          piece.foldr consPiece (cutFrom (· == sep) (piece.foldl step s) rest) :=
        cutFrom_append hs.quote hsettles.unquoted (hkeeps s hs)
      by_cases hmore : pieces = []
      · have := hfirst []
        rw [List.append_nil, cutFrom, foldr_consPiece] at this
        rw [hmore, joinWith, this]
      · have hcut : (piece.foldl step s).cutsAt (· == sep) sep = true := by
          simp only [signs, List.mem_cons, List.not_mem_nil, or_false, not_or] at hsep
          simp [cutsAt, marks, htop.depth, htop.angle, hsep]
        have hnext : { piece.foldl step s with previous := some sep }.AtTop :=
          ⟨htop.depth, htop.angle, htop.quote⟩
        rw [joinWith_cons hmore, hfirst, cutFrom_cons htop.quote, if_pos hcut,
          ih hnext hmore fun q hq => h q (List.mem_cons_of_mem _ hq), foldr_consPiece]

end Polyloft
