import Polyloft.Proofs.Declaration.Name
import Polyloft.Proofs.Token.Cursor

/-!
# Polyloft.Proofs.Token.Word

Words under a cursor. The word at a position is looked up in the raw text, with no regard for
comments, literals or numbers, and the tokens of a line come from the lexer. Every name and every
keyword that the lexer finds is nevertheless the word at each position that touches it. No position
touches two words, so that it does not matter in which order they are tried.

## Proof shape

A text can be cut where no word runs over the cut, and the words of the two parts are then the words
of the whole (`wordsFrom_append`). The end of a lexeme is such a place (`parted_lexeme`): a name and
an annotation take their word along to its end, a comment and a literal end with a sign, and all
else has no character that starts a word. So the scanner for words falls into step with the lexer
behind each lexeme.
-/

namespace Polyloft

open Polyloft.Text

/-! ### Words of a text -/

namespace Line

theorem wordsFrom_of_isNameStart {c : Char} (hc : isNameStart c = true) (column : Nat)
    (cs : List Char) :
    wordsFrom column (c :: cs) = (column, c :: cs.takeWhile isWord) ::
      wordsFrom (column + 1 + (cs.takeWhile isWord).length)
        (cs.drop (cs.takeWhile isWord).length) := by
  rw [wordsFrom, if_pos hc]

theorem wordsFrom_of_not_isNameStart {c : Char} (hc : isNameStart c = false) (column : Nat)
    (cs : List Char) : wordsFrom column (c :: cs) = wordsFrom (column + 1) cs := by
  rw [wordsFrom, if_neg (by simp [hc])]

/-- No word runs over the place between two parts of a text: nothing starts a word before it, or it
has no word character on one of its sides. -/
def Parted (before after : List Char) : Prop :=
  (∀ c ∈ before, isNameStart c = false) ∨ before.getLast?.any isWord = false ∨
    after.head?.any isWord = false

theorem Parted.drop {before after : List Char} (h : Parted before after) (n : Nat) :
    Parted (before.drop n) after := by
  rcases h with h | h | h
  · exact .inl fun c hc => h c (List.mem_of_mem_drop hc)
  · refine .inr (.inl ?_)
    rw [List.getLast?_drop]
    split
    · rfl
    · exact h
  · exact .inr (.inr h)

theorem Parted.tail {c : Char} {before after : List Char} (h : Parted (c :: before) after) :
    Parted before after := by
  simpa using h.drop 1

/-- The word that starts the first part ends in it. -/
theorem Parted.takeWhile_append {c : Char} {before after : List Char}
    (h : Parted (c :: before) after) (hc : isNameStart c = true) :
    (before ++ after).takeWhile isWord = before.takeWhile isWord := by
  rw [List.takeWhile_append]
  split
  · rename_i hall
    -- All of the first part is one word, so that the next part must not go on with it.
    have hword : ∀ d ∈ before, isWord d = true :=
      List.takeWhile_eq_self_iff.1 ((List.takeWhile_prefix isWord).eq_of_length hall)
    have hlast : (c :: before).getLast?.any isWord = true := by
      rw [List.getLast?_eq_some_getLast (List.cons_ne_nil c before), Option.any_some]
      rcases List.mem_cons.1 (List.getLast_mem (List.cons_ne_nil c before)) with heq | hmem
      · rw [heq]
        exact isWord_of_isNameStart hc
      · exact hword _ hmem
    have hhead : after.head?.any isWord = false := by
      rcases h with h | h | h
      · rw [h c (List.mem_cons_self ..)] at hc
        simp at hc
      · rw [hlast] at h
        simp at h
      · exact h
    have hnil : after.takeWhile isWord = [] := by
      cases after with
      | nil => rfl
      | cons d ds => exact List.takeWhile_cons_of_neg (by simpa using hhead)
    rw [hnil, List.append_nil, List.takeWhile_eq_self_iff.2 hword]
  · rfl

/-- The words of a text that is cut between words. -/
theorem wordsFrom_append {before after : List Char} (h : Parted before after) (column : Nat) :
    wordsFrom column (before ++ after) =
      wordsFrom column before ++ wordsFrom (column + before.length) after := by
  fun_induction wordsFrom column before with
  | case1 column => rfl
  | case2 column c cs hc tail ih =>
      have htail : (cs ++ after).takeWhile isWord = tail := h.takeWhile_append hc
      have hle : tail.length ≤ cs.length := (List.takeWhile_sublist isWord).length_le
      have hstop : column + 1 + tail.length + (cs.drop tail.length).length =
          column + (c :: cs).length := by
        rw [List.length_drop, List.length_cons]
        omega
      rw [List.cons_append, wordsFrom_of_isNameStart hc, htail, List.drop_append_of_le_length hle,
        ih (h.tail.drop _), hstop]
      rfl
  | case3 column c cs hc ih =>
      rw [List.cons_append, wordsFrom_of_not_isNameStart (by simpa using hc), ih h.tail,
        List.length_cons, Nat.add_assoc, Nat.add_comm 1]

theorem le_of_mem_wordsFrom {column : Nat} {cs : List Char} {w : Nat × List Char}
    (h : w ∈ wordsFrom column cs) : column ≤ w.1 := by
  fun_induction wordsFrom column cs with
  | case1 => simp at h
  | case2 column c cs hc tail ih =>
      rcases List.mem_cons.1 h with rfl | h
      · exact Nat.le_refl _
      · have := ih h
        omega
  | case3 column c cs hc ih => exact Nat.le_of_succ_le (ih h)

/-- A run of word characters is taken to its end. -/
theorem head?_drop_takeWhile_isWord (cs : List Char) :
    (cs.drop (cs.takeWhile isWord).length).head?.any isWord = false := by
  have hrest : cs.drop (cs.takeWhile isWord).length = cs.dropWhile isWord :=
    Cursor.rest_skipWhile isWord ⟨0, cs⟩
  have hhead := List.head?_dropWhile_not isWord cs
  rw [hrest]
  cases h : (cs.dropWhile isWord).head? with
  | none => rfl
  | some d => simpa [h] using hhead

/-- Between two words stands at least one character. -/
theorem pairwise_wordsFrom (column : Nat) (cs : List Char) :
    (wordsFrom column cs).Pairwise fun w v => w.1 + w.2.length < v.1 := by
  fun_induction wordsFrom column cs with
  | case1 => exact .nil
  | case2 column c cs hc tail ih =>
      refine List.pairwise_cons.2 ⟨?_, ih⟩
      intro v hv
      have hhead := head?_drop_takeWhile_isWord cs
      cases hrest : cs.drop tail.length with
      | nil => simp [hrest, wordsFrom] at hv
      | cons d ds =>
          -- The character behind a word does not start the next one.
          have hd : isNameStart d = false := by
            by_contra hd
            rw [hrest, List.head?_cons, Option.any_some,
              isWord_of_isNameStart (by simpa using hd)] at hhead
            simp at hhead
          rw [hrest, wordsFrom_of_not_isNameStart hd] at hv
          have := le_of_mem_wordsFrom hv
          rw [List.length_cons]
          omega
  | case3 column c cs hc ih => exact ih

/-- A word is a name that stands at its place. -/
theorem slice_of_mem_wordsFrom {text cs : List Char} {column : Nat} (hcs : text.drop column = cs)
    {w : Nat × List Char} (h : w ∈ wordsFrom column cs) :
    w.2 = Span.slice ⟨w.1, w.1 + w.2.length⟩ text ∧ isName w.2 = true := by
  fun_induction wordsFrom column cs with
  | case1 => simp at h
  | case2 column c cs hc tail ih =>
      rcases List.mem_cons.1 h with rfl | h
      · have hword : ∀ d ∈ tail, isWord d = true := fun d hd => List.mem_takeWhile_imp hd
        refine ⟨?_, by simpa [isName, hc] using hword⟩
        rw [Span.slice, hcs, Nat.add_sub_cancel_left, List.length_cons, List.take_succ_cons,
          take_length_takeWhile]
      · refine ih ?_ h
        rw [Nat.add_assoc, ← List.drop_drop, hcs, Nat.add_comm, List.drop_succ_cons]
  | case3 column c cs hc ih =>
      refine ih ?_ h
      rw [← List.drop_drop, hcs, List.drop_succ_cons, List.drop_zero]

end Line

/-! ### Lexemes -/

open Line (Parted wordsFrom)

theorem getLast?_of_commentClose? {cs : List Char} {n : Nat} (h : commentClose? cs = some n) :
    (cs.take n).getLast? = some '/' := by
  fun_induction commentClose? cs generalizing n with
  | case1 cs =>
      obtain rfl := Option.some.inj h
      rfl
  | case2 c cs hclose ih =>
      obtain ⟨m, hm, rfl⟩ := Option.map_eq_some_iff.1 h
      rw [List.take_succ_cons, List.getLast?_cons, ih hm]
      rfl
  | case3 => simp at h

theorem not_isNameStart_of_mem_number {c : Char} {cs : List Char} (hc : isDecimal c = true)
    {d : Char} (hd : d ∈ c :: cs.take (Lexeme.number cs).tail) : isNameStart d = false := by
  by_contra hstart
  obtain ⟨-, hdecimal, -, -, -, -, hdot⟩ := only_starts_name (by simpa using hstart)
  rcases Lexeme.isDecimal_or_eq_of_isNumeral (isNumeral_number cs hc) hd with h | h
  · rw [hdecimal] at h
    simp at h
  · exact hdot h

theorem not_isNameStart_of_mem_sign {c : Char} {cs : List Char} (hc : isNameStart c = false)
    {d : Char} (hd : d ∈ c :: cs.take (Lexeme.sign c cs).tail) : isNameStart d = false := by
  unfold Lexeme.sign at hd
  split at hd
  · rename_i op hop
    have hall : (operators.all fun op => op.toList.all fun d => !isNameStart d) = true := by
      decide +kernel
    dsimp only at hd
    rw [Lexeme.take_of_operatorAt? hop] at hd
    have hmem := List.mem_of_find?_eq_some hop
    simpa using List.all_eq_true.1 (List.all_eq_true.1 hall op hmem) d hd
  · have hone : d = c := by split at hd <;> simpa using hd
    rw [hone]
    exact hc

/-- No word runs over the end of a lexeme. -/
theorem parted_lexeme (c : Char) (cs : List Char) :
    Parted (c :: cs.take (Lexeme.at c cs).tail) (cs.drop (Lexeme.at c cs).tail) := by
  have hend : Parted (c :: cs.take cs.length) (cs.drop cs.length) := by
    rw [List.drop_length]
    exact .inr (.inr rfl)
  have hlast {n : Nat} {d : Char} (hd : (cs.take n).getLast? = some d) (hword : isWord d = false) :
      Parted (c :: cs.take n) (cs.drop n) := by
    refine .inr (.inl ?_)
    rw [List.getLast?_cons, hd]
    exact hword
  rw [Lexeme.at_eq]
  split
  · split
    · exact hend
    · split
      · rename_i hslash n hclose
        refine hlast ?_ (by decide : isWord '/' = false)
        cases cs with
        | nil => simp [commentClose?] at hclose
        | cons star inner =>
            have hinner : (inner.take n).getLast? = some '/' := getLast?_of_commentClose? hclose
            rw [List.take_succ_cons, List.getLast?_cons, hinner]
            rfl
      · exact hend
  · split
    · split
      · rename_i hname
        obtain ⟨a, ha, -⟩ := (Option.any_eq_true ..).1 hname
        obtain ⟨ds, rfl⟩ := List.head?_eq_some_iff.1 ha
        refine .inr (.inr ?_)
        dsimp only [List.tail_cons]
        rw [Nat.add_comm, List.drop_succ_cons]
        exact Line.head?_drop_takeWhile_isWord ds
      · rename_i hc _
        refine .inl ?_
        simp only [List.take_zero, List.mem_singleton, forall_eq, hc]
        decide
    · split
      · rename_i hquote
        split
        · rename_i n hclose
          obtain ⟨inner, htake, -⟩ := exists_take_of_closingQuote? hclose
          refine hlast (d := c) (by rw [htake, List.getLast?_concat]) ?_
          rcases hquote with rfl | rfl <;> decide
        · exact hend
      · split
        · rename_i hdecimal
          exact .inl fun d => not_isNameStart_of_mem_number hdecimal
        · split
          · exact .inr (.inr (Line.head?_drop_takeWhile_isWord cs))
          · rename_i hname
            exact .inl fun d => not_isNameStart_of_mem_sign (by simpa using hname)

/-! ### Tokens -/

/-- The names among the tokens of a text are words of the text. -/
theorem mem_wordsFrom_of_mem_lexFrom {line column : Nat} {cs : List Char} {t : Token}
    (ht : t ∈ (lexFrom line column cs).1) (hname : t.isName = true) :
    (t.column, t.text.toList) ∈ wordsFrom column cs := by
  fun_induction lexFrom line column cs with
  | case1 => simp at ht
  | case2 column c cs hskip ih =>
      have hc : isNameStart c = false := by
        by_contra hc
        rw [(only_starts_name (by simpa using hc)).1] at hskip
        simp at hskip
      rw [Line.wordsFrom_of_not_isNameStart hc]
      exact ih ht
  | case3 column c cs hskip lexeme token rest ih =>
      rcases List.mem_cons.1 ht with rfl | ht
      · -- A name takes all word characters behind its first one, as a word does.
        rcases Lexeme.at_cases c cs with ⟨hc, hat⟩ | ⟨-, -, hat⟩ | ⟨-, hkind⟩
        · have htail : cs.take lexeme.tail = cs.takeWhile isWord := by
            simp only [lexeme, hat, Lexeme.name, take_length_takeWhile]
          rw [Line.wordsFrom_of_isNameStart hc]
          simp only [token, htail, String.toList_ofList]
          exact List.mem_cons_self ..
        · simp [token, lexeme, Token.isName, hat] at hname
        · simp_all [token, lexeme, Token.isName]
      · have hlength : (c :: cs.take lexeme.tail).length = 1 + lexeme.tail := by
          rw [List.length_cons, List.length_take_of_le (Lexeme.tail_at_le c cs), Nat.add_comm]
        have hwords := Line.wordsFrom_append (parted_lexeme c cs) column
        rw [List.cons_append, List.take_append_drop, hlength, ← Nat.add_assoc] at hwords
        rw [hwords]
        exact List.mem_append_right _ (ih ht)

@[inherit_doc mem_wordsFrom_of_mem_lexFrom]
theorem mem_wordsFrom_of_mem_lexLine {text : List Char} {line : Nat} {inComment : Bool} {t : Token}
    (ht : t ∈ (lexLine text line inComment).1) (hname : t.isName = true) :
    (t.column, t.text.toList) ∈ wordsFrom 0 text := by
  have hcomment {text : String} {column : Nat} :
      ¬(Token.mk .comment text line column true).isName = true := by
    simp [Token.isName]
  unfold lexLine at ht
  split at ht
  · split at ht
    · split at ht
      · simp at ht
      · obtain rfl := List.mem_singleton.1 ht
        exact absurd hname hcomment
    · rename_i n hclose
      rcases List.mem_cons.1 ht with rfl | ht
      · exact absurd hname hcomment
      · have hparted : Parted (text.take n) (text.drop n) := by
          refine .inr (.inl ?_)
          rw [getLast?_of_commentClose? hclose]
          decide
        have hwords := Line.wordsFrom_append hparted 0
        rw [List.take_append_drop, List.length_take_of_le (commentClose?_le hclose),
          Nat.zero_add] at hwords
        rw [hwords]
        exact List.mem_append_right _ (mem_wordsFrom_of_mem_lexFrom ht hname)
  · exact mem_wordsFrom_of_mem_lexFrom ht hname

/-! ### The word under a cursor -/

namespace Line

/-- Does a character touch a word? It does inside of the word and at both of its ends. -/
def touches (character : Int) (w : Nat × List Char) : Bool :=
  (w.1 : Int) ≤ character && character ≤ ((w.1 + w.2.length : Nat) : Int)

/-- The first of some words that a character touches: its text, where it starts and where it
stops. -/
def firstTouched (words : List (Nat × List Char)) (character : Int) :
    Option (String × Nat × Nat) :=
  (words.find? (touches character)).map fun w => (String.ofList w.2, w.1, w.1 + w.2.length)

theorem wordAt?_eq (line : Line) (character : Int) :
    line.wordAt? character = firstTouched (wordsFrom 0 line.text) character :=
  rfl

theorem touches_iff {character : Int} {w : Nat × List Char} :
    touches character w = true ↔
      (w.1 : Int) ≤ character ∧ character ≤ ((w.1 + w.2.length : Nat) : Int) := by
  simp only [touches, Bool.and_eq_true, decide_eq_true_eq]

/-- No character touches two words of a line. -/
theorem eq_of_touches {column : Nat} {cs : List Char} {w v : Nat × List Char} {character : Int}
    (hw : w ∈ wordsFrom column cs) (hv : v ∈ wordsFrom column cs)
    (htw : touches character w = true) (htv : touches character v = true) : w = v := by
  rw [touches_iff] at htw htv
  by_contra hne
  have hsymm : Std.Symm fun w v : Nat × List Char =>
      w.1 + w.2.length < v.1 ∨ v.1 + v.2.length < w.1 := ⟨fun _ _ => Or.symm⟩
  have hpairwise : (wordsFrom column cs).Pairwise fun w v : Nat × List Char =>
      w.1 + w.2.length < v.1 ∨ v.1 + v.2.length < w.1 := (pairwise_wordsFrom column cs).imp Or.inl
  have hapart := hpairwise.forall hw hv hne
  omega

/-- What is found does not depend on the order of the words. -/
theorem firstTouched_eq_some_iff {text : List Char} {words : List (Nat × List Char)}
    (hwords : words.Perm (wordsFrom 0 text)) {character : Int} {found : String × Nat × Nat} :
    firstTouched words character = some found ↔
      ∃ w ∈ wordsFrom 0 text, touches character w = true ∧
        (String.ofList w.2, w.1, w.1 + w.2.length) = found := by
  rw [firstTouched, Option.map_eq_some_iff]
  constructor
  · rintro ⟨w, hw, rfl⟩
    exact ⟨w, hwords.subset (List.mem_of_find?_eq_some hw), List.find?_some hw, rfl⟩
  · rintro ⟨w, hw, htouches, rfl⟩
    refine ⟨w, ?_, rfl⟩
    cases hfind : words.find? (touches character) with
    | none => exact absurd htouches (List.find?_eq_none.1 hfind w (hwords.symm.subset hw))
    | some v =>
        have hv := hwords.subset (List.mem_of_find?_eq_some hfind)
        rw [eq_of_touches hv hw (List.find?_some hfind) htouches]

end Line

/-- The word at each position that touches a name or a keyword is that token, from its first to its
last column; a word is found only where it is touched, and it stands in the text; and the words of a
line may be tried in any order. -/
theorem cursor_words_are_tokens (text : List Char) (uri : Option String) :
    let doc := Document.ofText text uri
    (∀ (i : Nat) (l : Line), doc.lines[i]? = some l → ∀ t ∈ l.tokens,
      t.kind = .identifier ∨ t.kind = .keyword → ∀ character : Int,
        (t.column : Int) ≤ character → character ≤ (t.stop : Int) →
          doc.wordAt? ⟨i, character⟩ = some (t.text, t.column, t.stop)) ∧
    (∀ (position : Position) (word : String) (start stop : Nat),
      doc.wordAt? position = some (word, start, stop) →
        ∃ l, doc.line? position.line = some l ∧ isName word.toList = true ∧
          word.toList = Span.slice ⟨start, stop⟩ l.text ∧
          (start : Int) ≤ position.character ∧ position.character ≤ (stop : Int)) ∧
    ∀ l ∈ doc.lines, ∀ (words : List (Nat × List Char)) (character : Int),
      words.Perm (Line.wordsFrom 0 l.text) →
        l.wordAt? character = Line.firstTouched words character := by
  intro doc
  refine ⟨?_, ?_, ?_⟩
  · intro i l hl t ht hkind character hstart hstop
    obtain ⟨flag, -, hlexed⟩ := Document.exists_lexLine hl
    have hname : t.isName = true := by simpa [Token.isName] using hkind
    have hword : (t.column, t.text.toList) ∈ wordsFrom 0 l.text := by
      rw [hlexed] at ht
      exact mem_wordsFrom_of_mem_lexLine ht hname
    have hline : doc.line? (i : Int) = some l := by
      rw [Document.line?, if_neg (by omega), Int.toNat_natCast, hl]
    rw [Document.wordAt?, hline, Option.bind_some, Line.wordAt?_eq]
    refine (Line.firstTouched_eq_some_iff (List.Perm.refl _)).2 ⟨_, hword, ?_, ?_⟩
    · rw [Line.touches_iff]
      simpa [Token.stop] using ⟨hstart, hstop⟩
    · simp [Token.stop, String.length_toList]
  · intro position word start stop hfound
    obtain ⟨l, hl, hfound⟩ := Option.bind_eq_some_iff.1 hfound
    obtain ⟨w, hw, htouches, heq⟩ := (Line.firstTouched_eq_some_iff (List.Perm.refl _)).1 hfound
    obtain ⟨rfl, rfl, rfl⟩ : String.ofList w.2 = word ∧ w.1 = start ∧ w.1 + w.2.length = stop := by
      simpa using heq
    obtain ⟨hslice, hname⟩ := Line.slice_of_mem_wordsFrom rfl hw
    rw [Line.touches_iff] at htouches
    rw [String.toList_ofList]
    exact ⟨l, hl, hname, hslice, htouches⟩
  · intro l _ words character hwords
    refine Option.ext fun found => ?_
    rw [Line.wordAt?_eq, Line.firstTouched_eq_some_iff (List.Perm.refl _),
      Line.firstTouched_eq_some_iff hwords]

/-- A word right behind a comment that ends in a word, with a letter beyond ASCII, and one right
behind a number. -/
theorem cursor_words_are_tokens_crowded :
    let doc := Document.ofText "/*a*/bé 1c".toList none
    (∃ l, doc.lines[0]? = some l ∧ l.wordAt? 7 = Line.firstTouched [(9, ['c']), (5, ['b', 'é']),
      (2, ['a'])] 7) ∧
    doc.wordAt? ⟨0, 5⟩ = some ("bé", 5, 7) ∧ doc.wordAt? ⟨0, 7⟩ = some ("bé", 5, 7) ∧
    doc.wordAt? ⟨0, 9⟩ = some ("c", 9, 10) ∧
    ∃ l, doc.line? 0 = some l ∧ isName "c".toList = true ∧
      "c".toList = Span.slice ⟨9, 10⟩ l.text ∧ (9 : Int) ≤ 9 ∧ (9 : Int) ≤ 10 := by
  intro doc
  obtain ⟨htokens, hfound, horder⟩ := cursor_words_are_tokens "/*a*/bé 1c".toList none
  have hl : doc.lines[0]? = some ⟨0, "/*a*/bé 1c".toList,
      [⟨.comment, "/*a*/", 0, 0, true⟩, ⟨.identifier, "bé", 0, 5, true⟩, ⟨.int, "1", 0, 8, true⟩,
        ⟨.identifier, "c", 0, 9, true⟩]⟩ := by
    decide +kernel
  have hb (character : Int) (hstart : 5 ≤ character) (hstop : character ≤ 7) :
      doc.wordAt? ⟨0, character⟩ = some ("bé", 5, 7) :=
    htokens 0 _ hl ⟨.identifier, "bé", 0, 5, true⟩ (by simp) (.inl rfl) character hstart hstop
  have hc : doc.wordAt? ⟨0, 9⟩ = some ("c", 9, 10) :=
    htokens 0 _ hl ⟨.identifier, "c", 0, 9, true⟩ (by simp) (.inl rfl) 9 (by decide) (by decide)
  refine ⟨⟨_, hl, ?_⟩, hb 5 (by decide) (by decide), hb 7 (by decide) (by decide), hc,
    hfound ⟨0, 9⟩ "c" 9 10 hc⟩
  exact horder _ (List.mem_of_getElem? hl) _ 7 (by decide +kernel)

end Polyloft
