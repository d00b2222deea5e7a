import Polyloft.Proofs.Token.Cursor

/-!
# Polyloft.Proofs.Declaration.Prefix

Reading a line behind its annotations and modifiers. Shapes of declarations are read from the masked
text of a line, and start behind a prefix of annotations and modifiers. If these stand in order,
with something blank behind each annotation, the prefix ends where the first other token starts
(`Headed.faces`), and each shape is told by the tokens from there on.
-/

namespace Polyloft

open Polyloft.Text

/-! ### Views of a line -/

/-- The second text is the first one with some characters blanked. -/
def Blanks (cs cs' : List Char) : Prop :=
  ∀ k : Nat, cs'[k]? = cs[k]? ∨ cs[k]?.isSome = true ∧ cs'[k]? = some ' '

namespace Blanks

variable {cs cs' cs'' : List Char}

theorem refl (cs : List Char) : Blanks cs cs := fun _ => .inl rfl

theorem trans (h : Blanks cs cs') (h' : Blanks cs' cs'') : Blanks cs cs'' := by
  intro k
  rcases h k with heq | ⟨hsome, hblank⟩
  · rw [← heq]
    exact h' k
  · refine .inr ⟨hsome, ?_⟩
    rcases h' k with heq' | ⟨-, hblank'⟩
    · rw [heq', hblank]
    · exact hblank'

theorem blankSpan (lo hi : Nat) (cs : List Char) : Blanks cs (blankSpan lo hi cs) := by
  intro k
  rw [Polyloft.blankSpan, List.getElem?_mapIdx]
  cases cs[k]? with
  | none => exact .inl rfl
  | some c =>
      by_cases hk : lo ≤ k ∧ k < hi
      · exact .inr ⟨rfl, by simp [hk]⟩
      · exact .inl (by simp [hk])

theorem foldl {f : List Char → Token → List Char} (hf : ∀ cs t, Blanks cs (f cs t))
    (tokens : List Token) (cs : List Char) : Blanks cs (tokens.foldl f cs) := by
  induction tokens generalizing cs with
  | nil => exact refl cs
  | cons t tokens ih => exact (hf cs t).trans (ih (f cs t))

theorem eq_or_mem (h : Blanks cs cs') {d : Char} (hd : d ∈ cs') : d = ' ' ∨ d ∈ cs := by
  obtain ⟨k, hk⟩ := List.mem_iff_getElem?.1 hd
  rcases h k with heq | ⟨-, hblank⟩
  · exact .inr (List.mem_of_getElem? (heq ▸ hk))
  · rw [hblank] at hk
    exact .inl (Option.some.inj hk).symm

/-- What is blank stays blank. -/
theorem blank (h : Blanks cs cs') {k : Nat} (hk : cs[k]? = some ' ') : cs'[k]? = some ' ' := by
  rcases h k with heq | ⟨-, hblank⟩
  · rw [heq, hk]
  · exact hblank

/-- What is left was there before. -/
theorem getElem?_eq (h : Blanks cs cs') {k : Nat} {c : Char} (hk : cs'[k]? = some c)
    (hc : c ≠ ' ') : cs[k]? = some c := by
  rcases h k with heq | ⟨-, hblank⟩
  · rw [← heq, hk]
  · exact absurd (Option.some.inj (hk.symm.trans hblank)) hc

theorem any_isBlank (h : Blanks cs cs') {k : Nat} (hk : cs[k]?.any isBlank = true) :
    cs'[k]?.any isBlank = true := by
  rcases h k with heq | ⟨-, hblank⟩
  · rw [heq, hk]
  · rw [hblank]
    rfl

end Blanks

namespace Line

theorem blanks_blankComment (cs : List Char) (t : Token) : Blanks cs (blankComment cs t) := by
  rw [blankComment]
  split
  · exact .blankSpan _ _ _
  · exact .refl cs

theorem blanks_blankString (cs : List Char) (t : Token) : Blanks cs (blankString cs t) := by
  rw [blankString]
  split
  · exact .blankSpan _ _ _
  · exact .refl cs

theorem blanks_code (l : Line) : Blanks l.text l.code :=
  .foldl blanks_blankComment l.tokens l.text

theorem blanks_masked (l : Line) : Blanks l.code l.masked :=
  .foldl blanks_blankString l.tokens l.code

/-- A comment is blanked in the code. -/
theorem getElem?_code_of_comment {l : Line} {t : Token} (ht : t ∈ l.tokens)
    (hkind : t.kind = .comment) {k : Nat} (hk : t.StandsOver k) (hlength : k < l.text.length) :
    l.code[k]? = some ' ' := by
  obtain ⟨before, after, htokens⟩ := List.append_of_mem ht
  rw [Line.code, htokens, List.foldl_append, List.foldl_cons]
  refine (Blanks.foldl blanks_blankComment after _).blank ?_
  have hlt : k < (before.foldl blankComment l.text).length := by
    rwa [length_foldl_blankComment]
  have hover : t.column ≤ k ∧ k < t.stop := hk
  rw [blankComment, if_pos hkind, Polyloft.blankSpan, List.getElem?_mapIdx,
    List.getElem?_eq_getElem hlt, Option.map_some, if_pos hover]

/-- White space or a comment stands at the column. -/
def GapAt (l : Line) (column : Nat) : Prop :=
  l.text[column]?.any Text.isBlank = true ∨
    ∃ t ∈ l.tokens, t.kind = .comment ∧ t.column = column

instance (l : Line) (column : Nat) : Decidable (l.GapAt column) :=
  inferInstanceAs (Decidable (_ ∨ _))

theorem any_isBlank_masked {l : Line} (hl : Lossless l.text l.tokens) {column : Nat}
    (h : l.GapAt column) : l.masked[column]?.any Text.isBlank = true := by
  refine l.blanks_masked.any_isBlank ?_
  rcases h with hblank | ⟨t, ht, hkind, rfl⟩
  · exact l.blanks_code.any_isBlank hblank
  · have hstop := Token.column_lt_stop (hl.nonempty t ht)
    rw [getElem?_code_of_comment ht hkind ⟨Nat.le_refl _, hstop⟩
      (Nat.lt_of_lt_of_le hstop (hl.slice t ht).1)]
    rfl

end Line

/-! ### Prefixes -/

theorem Token.isKeywordIn_cons (t : Token) (w : String) (ws : List String) :
    t.isKeywordIn (w :: ws) = (t.isKeyword w || t.isKeywordIn ws) := by
  rw [isKeywordIn, isKeywordIn, isKeyword, List.contains_cons, Bool.and_or_distrib_left]

theorem dropWhile_isDeclarationPrefix {markers mods rest : List Token} {first : Token}
    (hmarkers : ∀ t ∈ markers, t.kind = .marker)
    (hmods : ∀ t ∈ mods, t.isKeywordIn modifiers = true)
    (hname : first.isName = true) (hfirst : first.isKeywordIn modifiers = false) :
    (markers ++ (mods ++ first :: rest)).dropWhile Token.isDeclarationPrefix = first :: rest := by
  have hplain : ¬first.isDeclarationPrefix = true := by
    rw [Token.isDeclarationPrefix, hfirst, Bool.or_false, beq_iff_eq]
    intro hkind
    simp [Token.isName, hkind] at hname
  rw [List.dropWhile_append_of_pos, List.dropWhile_append_of_pos,
    List.dropWhile_cons_of_neg hplain]
  · intro t ht
    rw [Token.isDeclarationPrefix, hmods t ht, Bool.or_true]
  · intro t ht
    rw [Token.isDeclarationPrefix, hmarkers t ht]
    rfl

theorem Token.isName_of_isKeywordIn {t : Token} {ws : List String} (h : t.isKeywordIn ws = true) :
    t.isName = true := by
  rw [isKeywordIn, Bool.and_eq_true] at h
  rw [isName, h.1, Bool.or_true]

theorem Token.startsUpper_eq (t : Token) :
    t.startsUpper = t.text.toList.head?.any Char.isUpper := by
  unfold startsUpper
  split <;> simp_all

namespace Shape

variable {text : List Char} {line : Nat} {t u : Token} {tokens : List Token} {c : Cursor}
  (htext : ∀ d ∈ text, isAsciiText d = true)
include htext

/-- An annotation is read exactly if something blank follows. -/
theorem marker?_eq (h : c.Faces text line (t :: tokens)) (ht : t.kind = .marker) :
    marker? c = (c.advance t.text.length).blanks? := by
  obtain ⟨a, es, hrest, hname, hlength⟩ := h.lexeme_of_marker htext ht
  have hliteral : c.literal? "@" = some (c.advance 1) := if_pos (by simp [hrest, List.isPrefixOf])
  have hrun : (c.advance 1).run? isWord isWord =
      some (⟨c.pos + 1, c.pos + 1 + (1 + (es.takeWhile isWord).length)⟩,
        (c.advance 1).advance (1 + (es.takeWhile isWord).length)) := by
    rw [Cursor.run?, Cursor.advance, hrest]
    exact if_pos (isWord_of_isNameStart hname)
  have hbehind : (c.advance 1).advance (1 + (es.takeWhile isWord).length) =
      c.advance t.text.length := by
    rw [hlength]
    simp only [Cursor.advance, List.drop_drop, Nat.add_assoc]
  rw [marker?, hliteral, Option.bind_some, hrun, Option.bind_some, hbehind]

theorem marker?_of_isName (h : c.Faces text line (t :: tokens)) (ht : t.isName = true) :
    marker? c = none := by
  obtain ⟨d, ds, hrest, hname, -⟩ := h.lexeme_of_isName htext ht
  have hliteral : c.literal? "@" = none := by
    refine if_neg ?_
    have hd := (only_starts_name hname).2.2.2.1
    simpa [hrest, List.isPrefixOf] using hd.symm
  rw [marker?, hliteral, Option.bind_none, Option.bind_none]

/-- A modifier is read exactly if it is the next token and something blank follows. -/
theorem modifier?_eq (h : c.Faces text line (t :: tokens)) :
    modifier? c = if t.isKeywordIn modifiers then (c.advance t.text.length).blanks? else none := by
  have hfind (ws : List String) (hws : ∀ w ∈ ws, w ∈ keywords) :
      ws.findSome? c.word? =
        if t.isKeywordIn ws then (c.advance t.text.length).blanks? else none := by
    induction ws with
    | nil => simp [Token.isKeywordIn]
    | cons w ws ih =>
        rw [List.forall_mem_cons] at hws
        rw [List.findSome?_cons, h.word?_eq htext hws.1, ih hws.2, Token.isKeywordIn_cons]
        cases (c.advance t.text.length).blanks? <;> cases t.isKeyword w <;> simp
  exact hfind modifiers (by decide)

/-- Reading goes on behind a step. -/
theorem many_eq_of_blank {step : Cursor → Option Cursor} (h : c.Faces text line (t :: tokens))
    (hstep : step c = (c.advance t.text.length).blanks?)
    (hblank : (c.advance t.text.length).rest.head?.any isBlank = true) :
    c.many step = (c.advance t.text.length).skipBlanks.many step := by
  obtain ⟨d, ds, hrest, -, hlength, -⟩ := h.exists_lexeme htext
  have hshorter : (c.advance t.text.length).skipBlanks.rest.length < c.rest.length := by
    rw [Cursor.skipBlanks, Cursor.rest_skipWhile, Cursor.advance, hrest, hlength, Nat.add_comm 1,
      List.drop_succ_cons, List.length_cons]
    have hle := ((List.dropWhile_sublist isBlank).trans (List.drop_sublist
      (Lexeme.at d ds).tail ds)).length_le
    exact Nat.lt_succ_of_le hle
  rw [Cursor.many, hstep, Cursor.blanks?, if_pos hblank]
  exact if_pos hshorter

omit htext in
theorem many_eq_of_none {step : Cursor → Option Cursor} (hstep : step c = none) :
    c.many step = c := by
  rw [Cursor.many, hstep]

/-- Annotations with something blank behind each are passed over. -/
theorem faces_many_marker? {markers : List Token}
    (hmarkers : ∀ t ∈ markers, t.kind = .marker ∧ text[t.stop]?.any isBlank = true)
    (hu : u.isName = true) (h : c.Faces text line (markers ++ u :: tokens)) :
    (c.many marker?).Faces text line (u :: tokens) := by
  induction markers generalizing c with
  | nil =>
      rw [many_eq_of_none (marker?_of_isName htext h hu)]
      exact h
  | cons t markers ih =>
      rw [List.forall_mem_cons] at hmarkers
      have hblank : (c.advance t.text.length).rest.head?.any isBlank = true := by
        rw [(h.within.advance t.text.length).head?, Cursor.advance, ← h.column_eq htext]
        exact hmarkers.1.2
      rw [many_eq_of_blank htext h (marker?_eq htext h hmarkers.1.1) hblank]
      exact ih hmarkers.2 ((h.advance htext).skipBlanks htext)

/-- Modifiers are passed over. -/
theorem faces_many_modifier? {mods : List Token}
    (hmods : ∀ t ∈ mods, t.isKeywordIn modifiers = true)
    (hu : u.isName = true) (hplain : u.isKeywordIn modifiers = false)
    (h : c.Faces text line (mods ++ u :: tokens)) :
    (c.many modifier?).Faces text line (u :: tokens) := by
  induction mods generalizing c with
  | nil =>
      have hnone := modifier?_eq htext h
      rw [if_neg (by simp [hplain])] at hnone
      rw [many_eq_of_none hnone]
      exact h
  | cons t mods ih =>
      rw [List.forall_mem_cons] at hmods
      have hstep := modifier?_eq htext h
      rw [if_pos hmods.1] at hstep
      have hname := Token.isName_of_isKeywordIn hmods.1
      -- A modifier is a word, and so is what comes next: nothing but blanks can part them.
      have hblank : (c.advance t.text.length).rest.head?.any isBlank = true := by
        cases mods with
        | nil => exact h.blank_between htext (.inl hname) hu
        | cons v mods =>
            exact h.blank_between htext (.inl hname)
              (Token.isName_of_isKeywordIn (hmods.2 v (List.mem_cons_self ..)))
      rw [many_eq_of_blank htext h hstep hblank]
      exact ih hmods.2 ((h.advance htext).skipBlanks htext)

end Shape

/-! ### Texts of headers -/

/-- The masked text has annotations, with something blank behind each, then modifiers, then the name
`first`, then `rest`. -/
structure Headed (text : List Char) (line : Nat) (first : Token) (rest : List Token) : Prop where
  ascii : ∀ d ∈ text, isAsciiText d = true
  lexed : ∃ markers mods, (lexFrom line 0 text).1 = markers ++ (mods ++ first :: rest) ∧
    (∀ t ∈ markers, t.kind = .marker ∧ text[t.stop]?.any isBlank = true) ∧
    ∀ t ∈ mods, t.isKeywordIn modifiers = true
  isName : first.isName = true
  not_modifier : first.isKeywordIn modifiers = false
  masked : ∀ t ∈ rest, t.kind ≠ .comment ∧ (t.kind = .string → ':' ∉ t.text.toList)

namespace Headed

open Shape

variable {text : List Char} {line : Nat} {first : Token} {rest : List Token}
  (h : Headed text line first rest)
include h

/-- The prefix ends where the first token behind it starts. -/
theorem faces : (skipPrefix (Cursor.ofText text)).Faces text line (first :: rest) := by
  obtain ⟨markers, mods, hlexed, hmarkers, hmods⟩ := h.lexed
  have hsees : (Cursor.ofText text).Sees text line (markers ++ (mods ++ first :: rest)) :=
    ⟨Cursor.within_ofText text, hlexed⟩
  refine faces_many_modifier? h.ascii hmods h.isName h.not_modifier ?_
  -- Annotations end before a name in both cases.
  cases mods with
  | nil => exact faces_many_marker? h.ascii hmarkers h.isName (hsees.skipBlanks h.ascii)
  | cons t mods =>
      have ht := Token.isName_of_isKeywordIn (hmods t (List.mem_cons_self ..))
      exact faces_many_marker? h.ascii hmarkers ht (hsees.skipBlanks h.ascii)

/-- The very first token is the first one behind the prefix, or part of the prefix. -/
theorem exists_faces_start :
    ∃ t tokens, (Cursor.ofText text).skipBlanks.Faces text line (t :: tokens) ∧
      (t = first ∨ t.isDeclarationPrefix = true) := by
  obtain ⟨markers, mods, hlexed, hmarkers, hmods⟩ := h.lexed
  have hsees : (Cursor.ofText text).Sees text line (markers ++ (mods ++ first :: rest)) :=
    ⟨Cursor.within_ofText text, hlexed⟩
  have hfaces := hsees.skipBlanks h.ascii
  cases markers with
  | nil =>
      cases mods with
      | nil => exact ⟨first, rest, hfaces, .inl rfl⟩
      | cons t mods =>
          refine ⟨t, _, hfaces, .inr ?_⟩
          rw [Token.isDeclarationPrefix, hmods t (List.mem_cons_self ..), Bool.or_true]
  | cons t markers =>
      refine ⟨t, _, hfaces, .inr ?_⟩
      rw [Token.isDeclarationPrefix, (hmarkers t (List.mem_cons_self ..)).1]
      rfl

/-- A keyword at the very start is the first token behind the prefix. -/
theorem isKeyword_of_word? {w : String} (hw : w ∈ keywords) (hmodifier : w ∉ modifiers)
    {c : Cursor} (hc : (Cursor.ofText text).skipBlanks.word? w = some c) :
    first.isKeyword w = true := by
  obtain ⟨t, tokens, hfaces, ht⟩ := h.exists_faces_start
  rw [hfaces.word?_eq h.ascii hw] at hc
  split at hc
  · rename_i hkeyword
    rcases ht with rfl | ht
    · exact hkeyword
    · rw [Token.isKeyword, Bool.and_eq_true, beq_iff_eq, beq_iff_eq] at hkeyword
      simp [Token.isDeclarationPrefix, Token.isKeywordIn, hkeyword, hmodifier] at ht
  · simp at hc

/-- A word and a name behind it are read exactly if they are the first tokens behind the prefix. -/
theorem of_wordThenName? {words : List String} (hwords : ∀ w ∈ words, w ∈ keywords)
    {found : String × Span × Cursor} (hfound : wordThenName? words text = some found) :
    found.1 ∈ words ∧ first.isKeyword found.1 = true ∧
      ∃ u us, rest = u :: us ∧ u.isName = true ∧ found.2.1 = ⟨u.column, u.stop⟩ := by
  obtain ⟨w, hw, hfound⟩ := List.exists_of_findSome?_eq_some hfound
  obtain ⟨name, hname, rfl⟩ := Option.map_eq_some_iff.1 hfound
  obtain ⟨c, hc, hname⟩ := Option.bind_eq_some_iff.1 hname
  rw [h.faces.word?_eq h.ascii (hwords w hw)] at hc
  split at hc
  · rename_i hkeyword
    have hfaces := (h.faces.advance h.ascii).blanks? h.ascii hc
    refine ⟨hw, hkeyword, ?_⟩
    cases rest with
    | nil =>
        rw [Cursor.name?, Cursor.run?, hfaces.rest_of_nil h.ascii] at hname
        simp at hname
    | cons u us =>
        rw [hfaces.name?_eq h.ascii] at hname
        split at hname
        · obtain rfl := Option.some.inj hname
          exact ⟨u, us, rfl, ‹_›, rfl⟩
        · simp at hname
  · simp at hc

theorem exists_wordThenName? {words : List String} (hwords : ∀ w ∈ words, w ∈ keywords) {w : String}
    (hw : w ∈ words) (hkeyword : first.isKeyword w = true) {u : Token} {us : List Token}
    (hrest : rest = u :: us) (hu : u.isName = true) :
    ∃ c, wordThenName? words text = some (w, ⟨u.column, u.stop⟩, c) := by
  subst hrest
  have hblank := h.faces.blank_between h.ascii (.inl h.isName) hu
  have hbehind := (h.faces.advance h.ascii).skipBlanks h.ascii
  have hsome : (wordThenName? words text).isSome = true := by
    refine List.findSome?_isSome_iff.2 ⟨w, hw, ?_⟩
    rw [h.faces.word?_eq h.ascii (hwords w hw), if_pos hkeyword, Cursor.blanks?, if_pos hblank,
      Option.bind_some, hbehind.name?_eq h.ascii, if_pos hu]
    rfl
  obtain ⟨⟨w', s, c⟩, hfound⟩ := Option.isSome_iff_exists.1 hsome
  obtain ⟨-, hkeyword', u', us', hrest, -, hs⟩ := h.of_wordThenName? hwords hfound
  obtain ⟨rfl, -⟩ := List.cons.inj hrest
  simp only [Token.isKeyword, Bool.and_eq_true, beq_iff_eq] at hkeyword hkeyword'
  refine ⟨c, ?_⟩
  rw [hfound, ← hkeyword.2, ← hkeyword'.2, ← hs]

/-- A constructor is read exactly if the first token behind the prefix starts with an upper-case
letter and a parenthesis follows. -/
theorem constructor?_eq :
    (constructor? text).map Prod.fst =
      if first.startsUpper && rest.head?.any (·.isSymbol "(") then some ⟨first.column, first.stop⟩
      else none := by
  have hparen : (((skipPrefix (Cursor.ofText text)).advance first.text.length).skipBlanks.literal?
      "(").isSome = rest.head?.any (·.isSymbol "(") := by
    have hfaces := (h.faces.advance h.ascii).skipBlanks h.ascii
    cases rest with
    | nil =>
        rw [Cursor.literal?, hfaces.rest_of_nil h.ascii]
        rfl
    | cons u us => exact hfaces.isSome_literal?_paren h.ascii
  rw [constructor?, h.faces.run?_eq h.ascii fun _ => isNameStart_of_isUpper,
    Token.startsUpper_eq]
  cases first.text.toList.head?.any Char.isUpper with
  | false => rfl
  | true =>
      rw [if_pos rfl, Option.filter, hparen, Bool.true_and]
      split <;> simp_all

/-- No variable is read behind the prefix unless one of the words for it stands there. -/
theorem variableLine?_eq_none (hne : ∀ m : Mutability, first.isKeyword m.keyword = false) :
    variableLine? text = none := by
  have hdeclarator : declarator? (skipPrefix (Cursor.ofText text)) = none := by
    refine List.findSome?_eq_none_iff.2 fun m _ => ?_
    have hm : m.keyword ∈ keywords := by cases m <;> decide
    rw [h.faces.word?_eq h.ascii hm, if_neg (by simp [hne m])]
    rfl
  rw [variableLine?, declarators, hdeclarator]
  rfl

theorem import?_eq_none (hne : first.isKeyword "import" = false) : import? text = none := by
  cases hword : (Cursor.ofText text).skipBlanks.word? "import" with
  | none => rw [import?, hword, Option.bind_none]
  | some c =>
      rw [h.isKeyword_of_word? (by decide) (by decide) hword] at hne
      simp at hne

theorem loop?_eq_none (hne : first.isKeyword "for" = false) : loop? text = none := by
  cases hword : (Cursor.ofText text).skipBlanks.word? "for" with
  | none => rw [loop?, hword, Option.bind_none]
  | some c =>
      rw [h.isKeyword_of_word? (by decide) (by decide) hword] at hne
      simp at hne

theorem caught?_eq_none (hne : first.text.toList.head? ≠ some 'c') : caught? text = none := by
  obtain ⟨t, tokens, hfaces, ht⟩ := h.exists_faces_start
  have hc : t.text.toList.head? ≠ some 'c' := by
    rcases ht with rfl | ht
    · exact hne
    · rw [Token.isDeclarationPrefix, Bool.or_eq_true, beq_iff_eq] at ht
      rcases ht with ht | ht
      · obtain ⟨a, es, hrest, -⟩ := hfaces.lexeme_of_marker h.ascii ht
        rw [hfaces.head?_text h.ascii, hrest]
        simp
      · have hall : ∀ w ∈ modifiers, w.toList.head? ≠ some 'c' := by decide
        rw [Token.isKeywordIn, Bool.and_eq_true, List.contains_iff_mem] at ht
        exact hall _ ht.2
  have hliteral : (Cursor.ofText text).skipBlanks.literal? "catch" = none := by
    refine if_neg fun hprefix => hc ?_
    obtain ⟨more, hmore⟩ := List.isPrefixOf_iff_prefix.1 hprefix
    rw [hfaces.head?_text h.ascii, ← hmore]
    rfl
  rw [caught?, hliteral, Option.bind_none]

theorem not_all_isBlank : ¬text.all isBlank = true := by
  intro hall
  obtain ⟨t, tokens, hfaces, -⟩ := h.exists_faces_start
  obtain ⟨d, ds, hrest, -⟩ := hfaces.exists_lexeme h.ascii
  rw [Cursor.skipBlanks, Cursor.rest_skipWhile, Cursor.ofText,
    List.dropWhile_eq_nil_iff.2 (List.all_eq_true.1 hall)] at hrest
  simp at hrest

theorem exists_lexed : ∃ before, (lexFrom line 0 text).1 = before ++ first :: rest := by
  obtain ⟨markers, mods, hlexed, -⟩ := h.lexed
  exact ⟨markers ++ mods, by rw [hlexed, List.append_assoc]⟩

theorem kind_eq {t : Token} (ht : t ∈ first :: rest) (hname : t.isName = true) :
    t.kind = wordKind t.text := by
  obtain ⟨before, hlexed⟩ := h.exists_lexed
  exact kind_eq_wordKind (hlexed ▸ List.mem_append_right before ht) hname

/-- The text at the place of a token. -/
theorem spanText_eq {t : Token} (ht : t ∈ first :: rest) :
    Collect.spanText ⟨t.column, t.stop⟩ text = t.text := by
  obtain ⟨before, hlexed⟩ := h.exists_lexed
  have htiles : Tiles text 0 (lexFrom line 0 text).1 := tiles_lexFrom line rfl
  rw [hlexed] at htiles
  rw [Collect.spanText, ← (htiles.slice (List.mem_append_right before ht)).2, String.ofList_toList]

/-- The text ends with a colon exactly if the last token is one. -/
theorem getLast?_stripEnd_iff :
    (stripEnd text).getLast? = some ':' ↔ (rest.getLastD first).isSymbol ":" = true := by
  obtain ⟨before, hlexed⟩ := h.exists_lexed
  have hname : first.kind ≠ .comment ∧ first.kind ≠ .string := by
    have hname := h.isName
    constructor <;> intro hkind <;> simp [Token.isName, hkind] at hname
  rcases List.eq_nil_or_concat' rest with rfl | ⟨more, t, rfl⟩
  · exact getLast?_stripEnd_eq_colon_iff h.ascii hlexed hname.1 fun hkind => absurd hkind hname.2
  · have ht := h.masked t (List.mem_append_right more (List.mem_singleton_self t))
    rw [← List.cons_append, ← List.append_assoc] at hlexed
    rw [List.getLastD_concat]
    exact getLast?_stripEnd_eq_colon_iff h.ascii hlexed ht.1 ht.2

end Headed

end Polyloft
