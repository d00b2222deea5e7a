import Polyloft.Proofs.Comment.Blank

/-!
# Polyloft.Proofs.Token.Region

Comments and string literals, character by character. The scanner of `Region` walks over a line with
a handful of states and says of each character whether it is code, part of a string literal or part
of a comment (`Region.walk`); at the end of a line only a block comment goes on.

The lexer jumps from token to token instead. The two agree on every line of every text: a column
lies in a string token exactly if the scanner classes its character so, and likewise for comments,
except that a line of blanks inside a block comment has no token.

## Proof shape

The scanner passes over a lexeme in one piece, all of the class of the lexeme, and stays inside a
string literal from its first character on exactly if the literal has no closing quote
(`exists_walk_of_lexeme`). `Agree` says that some tokens and a part of the scanner's way over a line
fit together; it holds of nothing, and it is kept by one more character between tokens and by one
more token, which is how both forms of a line are put together.
-/

namespace Polyloft

open Polyloft.Text

/-! ### The scanner's way over a line -/

/-- What a character is part of. -/
inductive CharClass where
  | code
  | string
  | comment
deriving DecidableEq, Repr

namespace Region

/-- What a character is part of, given the character that follows it. -/
def classOf (c : Char) (following : Option Char) : Region → CharClass
  | code =>
    if startsComment c following then .comment
    else if c = '"' ∨ c = '\'' then .string
    else .code
  | literal _ => .string
  | escape _ => .string
  | _ => .comment

/-- The class of each character of a line, with the region behind the character. -/
def walk : Region → List Char → List (CharClass × Region)
  | _, [] => []
  | r, c :: cs => (r.classOf c cs.head?, r.next c cs.head?) :: walk (r.next c cs.head?) cs

/-- The region behind a line. -/
def behind : Region → List Char → Region
  | r, [] => r
  | r, c :: cs => behind (r.next c cs.head?) cs

/-- In the middle of a string literal. -/
def inLiteral : Region → Bool
  | literal _ => true
  | escape _ => true
  | _ => false

/-- In the middle of a block comment. -/
def inBlockComment : Region → Bool
  | opening => true
  | comment => true
  | closing => true
  | _ => false

/-- The region in which the next line starts: line comments and string literals end with their line,
block comments do not. -/
def nextLine (r : Region) : Region :=
  if r.inBlockComment then comment else code

/-- The region behind some lines, where the next one starts. -/
def behindLines (r : Region) (texts : List (List Char)) : Region :=
  texts.foldl (fun r text => (r.behind text).nextLine) r

@[simp] theorem walk_nil (r : Region) : r.walk [] = [] := by
  cases r <;> rfl

theorem walk_cons (r : Region) (c : Char) (cs : List Char) :
    r.walk (c :: cs) =
      (r.classOf c cs.head?, r.next c cs.head?) :: (r.next c cs.head?).walk cs := by
  cases r <;> rfl

theorem length_walk (r : Region) (cs : List Char) : (r.walk cs).length = cs.length := by
  induction cs generalizing r with
  | nil => simp
  | cons c cs ih => simp [walk_cons, ih]

/-! ### Runs of characters -/

theorem walk_code_of_isPlain {c : Char} (h : isPlain c = true) (cs : List Char) :
    code.walk (c :: cs) = (.code, code) :: code.walk cs := by
  simp only [isPlain, Bool.and_eq_true, bne_iff_ne] at h
  obtain ⟨⟨hslash, hquote⟩, hsingle⟩ := h
  simp [walk_cons, next, classOf, startsComment, hslash, hquote, hsingle]

theorem walk_code_append {w : List Char} (hw : ∀ c ∈ w, isPlain c = true) (cs : List Char) :
    code.walk (w ++ cs) = w.map (fun _ => (.code, code)) ++ code.walk cs := by
  induction w with
  | nil => rfl
  | cons c w ih =>
      rw [List.forall_mem_cons] at hw
      rw [List.cons_append, walk_code_of_isPlain hw.1, ih hw.2]
      rfl

theorem mem_walk_lineComment {cs : List Char} {p : CharClass × Region}
    (hp : p ∈ lineComment.walk cs) : p.1 = .comment := by
  induction cs with
  | nil => simp at hp
  | cons c cs ih =>
      rcases List.mem_cons.1 hp with rfl | hp
      · rfl
      · exact ih hp

/-- The closing quote is the first character behind which the scanner is in code again. -/
theorem walk_literal_of_closed {quote : Char} (hquote : quote ≠ '\\') {cs : List Char} {n : Nat}
    (h : closingQuote? quote cs = some n) :
    ∃ inner, (literal quote).walk cs = inner ++ (.string, code) :: code.walk (cs.drop n) ∧
      inner.length + 1 = n ∧ ∀ p ∈ inner, p.1 = .string ∧ p.2.inLiteral = true := by
  fun_induction closingQuote? quote cs generalizing n with
  | case1 => simp at h
  | case2 => simp at h
  | case3 c cs ih =>
      obtain ⟨m, hm, rfl⟩ := Option.map_eq_some_iff.1 h
      obtain ⟨inner, hwalk, hlength, hinner⟩ := ih hm
      refine ⟨(.string, escape quote) :: (.string, literal quote) :: inner, ?_, ?_, ?_⟩
      · simp [walk_cons, next, classOf, hwalk]
      · simp [← hlength]
      · simpa [inLiteral] using hinner
  | case4 cs hlast hescape =>
      obtain rfl := Option.some.inj h
      exact ⟨[], by simp [walk_cons, next, classOf, hquote], rfl, by simp⟩
  | case5 c cs hlast hescape hne ih =>
      obtain ⟨m, hm, rfl⟩ := Option.map_eq_some_iff.1 h
      obtain ⟨inner, hwalk, hlength, hinner⟩ := ih hm
      have hback := ne_backslash hlast hescape
      refine ⟨(.string, literal quote) :: inner, ?_, ?_, ?_⟩
      · simp [walk_cons, next, classOf, hback, hne, hwalk]
      · simp [← hlength]
      · simpa [inLiteral] using hinner

theorem length_le_of_closingQuote? {quote : Char} {cs : List Char} {n : Nat}
    (h : closingQuote? quote cs = some n) : n ≤ cs.length := by
  fun_induction closingQuote? quote cs generalizing n with
  | case1 => simp at h
  | case2 => simp at h
  | case3 c cs ih =>
      obtain ⟨m, hm, rfl⟩ := Option.map_eq_some_iff.1 h
      exact Nat.succ_le_succ (Nat.succ_le_succ (ih hm))
  | case4 cs =>
      obtain rfl := Option.some.inj h
      simp
  | case5 c cs hlast hescape hne ih =>
      obtain ⟨m, hm, rfl⟩ := Option.map_eq_some_iff.1 h
      exact Nat.succ_le_succ (ih hm)

theorem walk_code_of_quote {c : Char} (h : c = '"' ∨ c = '\'') (cs : List Char) :
    code.walk (c :: cs) = (.string, literal c) :: (literal c).walk cs := by
  have hslash : c ≠ '/' := by rcases h with rfl | rfl <;> decide
  simp [walk_cons, next, classOf, startsComment, hslash, h]

/-- Without a closing quote the scanner stays in the literal. -/
theorem mem_walk_literal_of_open {quote : Char} {cs : List Char}
    (h : closingQuote? quote cs = none) {p : CharClass × Region}
    (hp : p ∈ (literal quote).walk cs) : p.1 = .string ∧ p.2.inLiteral = true := by
  fun_induction closingQuote? quote cs with
  | case1 => simp at hp
  | case2 =>
      rw [walk_cons, walk_nil, List.mem_singleton] at hp
      rw [hp]
      exact ⟨rfl, rfl⟩
  | case3 c cs ih =>
      rw [walk_cons, walk_cons] at hp
      rcases List.mem_cons.1 hp with rfl | hp
      · exact ⟨rfl, rfl⟩
      · rcases List.mem_cons.1 hp with rfl | hp
        · exact ⟨rfl, rfl⟩
        · exact ih (Option.map_eq_none_iff.1 h) hp
  | case4 => simp at h
  | case5 c cs hlast hescape hne ih =>
      have hnext : (literal quote).next c cs.head? = literal quote := by
        rw [next, if_neg (ne_backslash hlast hescape), if_neg hne]
      rw [walk_cons, hnext] at hp
      rcases List.mem_cons.1 hp with rfl | hp
      · exact ⟨rfl, rfl⟩
      · exact ih (Option.map_eq_none_iff.1 h) hp

theorem walk_comment_of_closed {cs : List Char} {n : Nat} (h : commentClose? cs = some n) :
    ∃ inner, comment.walk cs = inner ++ code.walk (cs.drop n) ∧ inner.length = n ∧
      ∀ p ∈ inner, p.1 = .comment := by
  fun_induction commentClose? cs generalizing n with
  | case1 cs =>
      obtain rfl := Option.some.inj h
      exact ⟨[(.comment, closing), (.comment, code)], by simp [walk_cons, next, classOf], rfl,
        by simp⟩
  | case2 c cs hclose ih =>
      obtain ⟨m, hm, rfl⟩ := Option.map_eq_some_iff.1 h
      obtain ⟨inner, hwalk, hlength, hinner⟩ := ih hm
      have hnext := next_comment hclose
      refine ⟨(.comment, comment) :: inner, ?_, ?_, ?_⟩
      · simp [walk_cons, hnext, classOf, hwalk]
      · simp [hlength]
      · simpa using hinner
  | case3 => simp at h

theorem mem_walk_comment_of_open {cs : List Char} (h : commentClose? cs = none)
    {p : CharClass × Region} (hp : p ∈ comment.walk cs) : p.1 = .comment := by
  fun_induction commentClose? cs with
  | case1 cs => simp at h
  | case2 c cs hclose ih =>
      rw [walk_cons, next_comment hclose] at hp
      rcases List.mem_cons.1 hp with rfl | hp
      · rfl
      · exact ih (Option.map_eq_none_iff.1 h) hp
  | case3 => simp at hp

/-! ### Open comments -/

theorem snd_scan (r : Region) (cs : List Char) : (r.scan cs).2 = (r.behind cs == comment) := by
  induction cs generalizing r with
  | nil => rw [scan_nil, behind]
  | cons c cs ih => rw [scan_cons, behind, ih]

/-- The star of a `/*` and the slash of a `*/` stand on the line, so a line does not end before
them. -/
theorem behind_ne {r : Region} {cs : List Char}
    (h : r = opening ∨ r = closing → cs ≠ []) :
    r.behind cs ≠ opening ∧ r.behind cs ≠ closing := by
  induction cs generalizing r with
  | nil =>
      rw [behind]
      exact ⟨fun hr => h (.inl hr) rfl, fun hr => h (.inr hr) rfl⟩
  | cons c cs ih =>
      rw [behind]
      refine ih ?_
      rintro hnext rfl
      cases r <;> simp [next, startsComment] at hnext
      · split at hnext <;> simp at hnext
      · split at hnext
        · simp at hnext
        · split at hnext <;> simp at hnext

theorem inBlockComment_behind_atStart (inComment : Bool) (cs : List Char) :
    ((atStart inComment).behind cs).inBlockComment =
      ((atStart inComment).behind cs == comment) := by
  have hne := @behind_ne (atStart inComment) cs (by cases inComment <;> simp [atStart])
  cases hr : (atStart inComment).behind cs <;> simp_all [inBlockComment]

end Region

/-- The lexer leaves a comment open where the scanner does. -/
theorem snd_lexLine_eq_inBlockComment (text : List Char) (line : Nat) (inComment : Bool) :
    (lexLine text line inComment).2 =
      ((Region.atStart inComment).behind text).inBlockComment := by
  rw [snd_lexLine, Region.snd_scan, Region.inBlockComment_behind_atStart]

/-! ### Lexemes -/

/-- What the characters of a token are part of. -/
def TokenKind.charClass : TokenKind → CharClass
  | .string => .string
  | .comment => .comment
  | _ => .code

theorem TokenKind.charClass_eq_string {kind : TokenKind} :
    kind.charClass = .string ↔ kind = .string := by
  cases kind <;> simp [charClass]

theorem TokenKind.charClass_eq_comment {kind : TokenKind} :
    kind.charClass = .comment ↔ kind = .comment := by
  cases kind <;> simp [charClass]

/-- A string literal starts with a quote. -/
theorem Lexeme.kind_ne_string {c : Char} {cs : List Char} (hquote : ¬(c = '"' ∨ c = '\'')) :
    (Lexeme.at c cs).kind ≠ .string := by
  rw [at_eq, if_neg hquote]
  unfold number name sign
  dsimp only
  repeat' split
  all_goals simp

namespace Region

/-- The scanner passes over a lexeme in one piece. It stays in a string literal to the end of the
line exactly if the literal has no closing quote. -/
theorem exists_walk_of_lexeme (c : Char) (cs : List Char) :
    let x := Lexeme.at c cs
    ∃ piece, code.walk (c :: cs) = piece ++ code.walk (cs.drop x.tail) ∧
      piece.length = 1 + (cs.take x.tail).length ∧
      (∀ p ∈ piece, p.1 = x.kind.charClass) ∧
      (x.kind = .string →
        (x.terminated = false ↔ ∀ p ∈ code.walk (c :: cs), p.2.inLiteral = true)) := by
  intro x
  have hreads : Lexeme.Reads c cs x := Lexeme.reads_at c cs
  have hstring : ¬(c = '"' ∨ c = '\'') → x.kind ≠ .string := Lexeme.kind_ne_string
  clear_value x
  cases hreads with
  | lineComment hc hcs =>
      refine ⟨code.walk (c :: cs), by simp, by simp [length_walk, Nat.add_comm], ?_, by simp⟩
      subst hc hcs
      intro p hp
      rcases List.mem_cons.1 hp with rfl | hp
      · rfl
      · exact mem_walk_lineComment hp
  | closedComment hc hcs hclose =>
      subst hc hcs
      obtain ⟨inner, hwalk, hlength, hinner⟩ := walk_comment_of_closed hclose
      refine ⟨(.comment, opening) :: (.comment, comment) :: inner, ?_, ?_, ?_, by simp⟩
      · simp [walk_cons, next, classOf, startsComment, hwalk]
      · simp [hlength, commentClose?_le hclose]
        omega
      · simpa [TokenKind.charClass] using hinner
  | openComment hc hcs hclose =>
      refine ⟨code.walk (c :: cs), by simp, by simp [length_walk, Nat.add_comm], ?_, by simp⟩
      subst hc hcs
      intro p hp
      rw [walk_cons, walk_cons] at hp
      rcases List.mem_cons.1 hp with rfl | hp
      · rfl
      · rcases List.mem_cons.1 hp with rfl | hp
        · rfl
        · exact mem_walk_comment_of_open hclose hp
  | @closedString n hquote hclose =>
      have hback : c ≠ '\\' := by rcases hquote with rfl | rfl <;> decide
      obtain ⟨inner, hwalk, hlength, hinner⟩ := walk_literal_of_closed hback hclose
      have hle := length_le_of_closingQuote? hclose
      have hwalk : code.walk (c :: cs) =
          (.string, literal c) :: inner ++ (.string, code) :: code.walk (cs.drop n) := by
        rw [walk_code_of_quote hquote, hwalk]
        rfl
      refine ⟨(.string, literal c) :: inner ++ [(.string, code)], ?_, ?_, ?_, ?_⟩
      · rw [hwalk, List.append_assoc]
        rfl
      · rw [List.length_take_of_le hle, ← hlength]
        simp
        omega
      · simpa [TokenKind.charClass, or_imp, forall_and] using fun p hp => (hinner p hp).1
      · -- Behind the closing quote the scanner is in code again.
        refine fun _ => ⟨fun h => absurd h (by simp), fun hall => ?_⟩
        have hlast := hall (.string, code) (by rw [hwalk]; simp)
        simp [inLiteral] at hlast
  | openString hquote hclose =>
      have hmem : ∀ p ∈ code.walk (c :: cs), p.1 = .string ∧ p.2.inLiteral = true := by
        rw [walk_code_of_quote hquote]
        intro p hp
        rcases List.mem_cons.1 hp with rfl | hp
        · exact ⟨rfl, rfl⟩
        · exact mem_walk_literal_of_open hclose hp
      refine ⟨code.walk (c :: cs), by simp, by simp [length_walk, Nat.add_comm], ?_, ?_⟩
      · exact fun p hp => (hmem p hp).1
      · exact fun _ => ⟨fun _ p hp => (hmem p hp).2, fun _ => rfl⟩
  | plain hstart hquote hkind hopens htail =>
      have hrest := walk_code_append htail (cs.drop x.tail)
      rw [List.take_append_drop] at hrest
      have hclass : x.kind.charClass = .code := by
        cases hx : x.kind <;> simp_all [TokenKind.charClass]
      refine ⟨(.code, code) :: (cs.take x.tail).map fun _ => (.code, code), ?_, ?_, ?_, ?_⟩
      · simp [walk_cons, next, classOf, hstart, hquote, hrest]
      · simp [Nat.add_comm]
      · simp only [List.forall_mem_cons, List.forall_mem_map, hclass, implies_true, and_self]
      · exact fun h => absurd h (hstring hquote)

end Region

/-! ### Tokens and characters -/

/-- The token stands over a column. -/
def Token.StandsOver (t : Token) (column : Nat) : Prop :=
  t.column ≤ column ∧ column < t.stop

/-- Some tokens from a column on, and the scanner's steps from there, fit together. -/
structure Agree (column : Nat) (tokens : List Token) (steps : List (CharClass × Region)) :
    Prop where
  starts : ∀ t ∈ tokens, column ≤ t.column
  covered : ∀ cls, cls ≠ .code → ∀ k,
    (∃ t ∈ tokens, t.kind.charClass = cls ∧ t.StandsOver (column + k)) ↔
      steps[k]?.map Prod.fst = some cls
  unterminated : ∀ t ∈ tokens, t.kind = .string →
    (t.terminated = false ↔
      ∀ k p, t.column ≤ column + k → steps[k]? = some p → p.2.inLiteral = true)

namespace Agree

variable {column : Nat} {tokens : List Token} {steps : List (CharClass × Region)}

theorem nil (column : Nat) : Agree column [] [] where
  starts := by simp
  covered := by simp
  unterminated := by simp

/-- A character between tokens. -/
theorem skip (r : Region) (h : Agree (column + 1) tokens steps) :
    Agree column tokens ((.code, r) :: steps) where
  starts t ht := by
    have := h.starts t ht
    omega
  covered cls hcls k := by
    cases k with
    | zero =>
        simp only [List.getElem?_cons_zero, Option.map_some, Option.some.injEq]
        refine ⟨?_, fun hcode => absurd hcode.symm hcls⟩
        rintro ⟨t, ht, -, hle, -⟩
        have := h.starts t ht
        omega
    | succ k =>
        have hk := h.covered cls hcls k
        rw [Nat.add_right_comm] at hk
        exact hk
  unterminated t ht hkind := by
    rw [h.unterminated t ht hkind]
    have hcolumn := h.starts t ht
    constructor
    · intro hall k p hle hp
      cases k with
      | zero => omega
      | succ k => exact hall k p (by omega) hp
    · intro hall k p hle hp
      exact hall (k + 1) p (by omega) hp

/-- A token and what the scanner makes of it. -/
theorem cons {t : Token} {piece : List (CharClass × Region)} (hcolumn : t.column = column)
    (hstop : t.stop = column + piece.length) (hpiece : ∀ p ∈ piece, p.1 = t.kind.charClass)
    (hterminated : t.kind = .string →
      (t.terminated = false ↔ ∀ p ∈ piece ++ steps, p.2.inLiteral = true))
    (h : Agree (column + piece.length) tokens steps) :
    Agree column (t :: tokens) (piece ++ steps) where
  starts u hu := by
    rcases List.mem_cons.1 hu with rfl | hu
    · exact hcolumn.ge
    · have := h.starts u hu
      omega
  covered cls hcls k := by
    rcases Nat.lt_or_ge k piece.length with hk | hk
    · rw [List.getElem?_append_left hk, List.getElem?_eq_getElem hk, Option.map_some,
        Option.some.injEq, hpiece _ (List.getElem_mem hk)]
      constructor
      · rintro ⟨u, hu, hclass, hle, -⟩
        rcases List.mem_cons.1 hu with rfl | hu
        · exact hclass
        · have := h.starts u hu
          omega
      · exact fun hclass => ⟨t, List.mem_cons_self .., hclass, by omega, by omega⟩
    · have hrest := h.covered cls hcls (k - piece.length)
      rw [List.getElem?_append_right hk, ← hrest]
      have hsum : column + piece.length + (k - piece.length) = column + k := by omega
      rw [hsum]
      constructor
      · rintro ⟨u, hu, hclass, hover⟩
        rcases List.mem_cons.1 hu with rfl | hu
        · have := hover.2
          omega
        · exact ⟨u, hu, hclass, hover⟩
      · rintro ⟨u, hu, hclass, hover⟩
        exact ⟨u, List.mem_cons_of_mem _ hu, hclass, hover⟩
  unterminated u hu hkind := by
    rcases List.mem_cons.1 hu with rfl | hu
    · rw [hterminated hkind, hcolumn]
      constructor
      · exact fun hall k p _ hp => hall p (List.mem_of_getElem? hp)
      · intro hall p hp
        obtain ⟨k, hk⟩ := List.mem_iff_getElem?.1 hp
        exact hall k p (Nat.le_add_right ..) hk
    · rw [h.unterminated u hu hkind]
      have hle := h.starts u hu
      constructor
      · intro hall k p hk hp
        rw [List.getElem?_append_right (by omega)] at hp
        exact hall (k - piece.length) p (by omega) hp
      · intro hall k p hk hp
        refine hall (piece.length + k) p (by omega) ?_
        rw [List.getElem?_append_right (Nat.le_add_right ..), Nat.add_sub_cancel_left]
        exact hp

end Agree

/-- Outside of comments the lexer follows the scanner. -/
theorem agree_lexFrom (line column : Nat) (cs : List Char) :
    Agree column (lexFrom line column cs).1 (Region.code.walk cs) := by
  fun_induction lexFrom line column cs with
  | case1 column => exact .nil column
  | case2 column c cs hskip ih =>
      rw [Region.walk_code_of_isPlain (isPlain_of_isSkipped hskip)]
      exact ih.skip _
  | case3 column c cs hskip lexeme token rest ih =>
      obtain ⟨piece, hwalk, hlength, hpiece, hterminated⟩ := Region.exists_walk_of_lexeme c cs
      have hstop : token.stop = column + piece.length := by
        rw [hlength]
        simp [token, lexeme, Token.stop]
      rw [hwalk] at hterminated ⊢
      refine .cons rfl hstop hpiece hterminated ?_
      rcases Nat.le_total lexeme.tail cs.length with hle | hge
      · rw [hlength, List.length_take_of_le hle, ← Nat.add_assoc]
        exact ih
      · -- Nothing is left behind a token that reaches to the end.
        have hnil : cs.drop lexeme.tail = [] := List.drop_eq_nil_of_le hge
        simp only [rest, lexeme] at hnil ⊢
        simp only [hnil, lexFrom, Region.walk_nil]
        exact .nil _

/-- On a line that starts inside a comment the lexer follows the scanner too, unless the line is
blank. -/
theorem agree_lexLine {text : List Char} (line : Nat) {inComment : Bool}
    (hblank : ¬(inComment = true ∧ strip text = [])) :
    Agree 0 (lexLine text line inComment).1 ((Region.atStart inComment).walk text) := by
  cases inComment with
  | false => exact agree_lexFrom line 0 text
  | true =>
      have hstrip : strip text ≠ [] := fun h => hblank ⟨rfl, h⟩
      cases hclose : commentClose? text with
      | none =>
          have hwalk : Agree 0 [⟨.comment, String.ofList text, line, 0, true⟩]
              (Region.comment.walk text ++ []) :=
            .cons rfl (by simp [Token.stop, Region.length_walk])
              (fun p hp => Region.mem_walk_comment_of_open hclose hp) (by simp) (.nil _)
          simpa only [lexLine, hclose, Region.atStart, if_true, if_neg hstrip, List.append_nil]
            using hwalk
      | some n =>
          obtain ⟨inner, hwalk, hlength, hinner⟩ := Region.walk_comment_of_closed hclose
          have hrest := agree_lexFrom line n (text.drop n)
          simp only [lexLine, hclose, if_true, Region.atStart, hwalk]
          refine .cons rfl ?_ hinner (by simp) ?_
          · simp [Token.stop, hlength, commentClose?_le hclose]
          · rw [Nat.zero_add, hlength]
            exact hrest

/-- A line of blanks inside a comment has no token and is all comment. -/
theorem lexLine_blank {text : List Char} (line : Nat) (hblank : strip text = []) :
    (lexLine text line true).1 = [] ∧ ∀ p ∈ Region.comment.walk text, p.1 = .comment := by
  have hclose := commentClose?_of_strip hblank
  exact ⟨by simp [lexLine, hclose, hblank], fun p hp => Region.mem_walk_comment_of_open hclose hp⟩

/-! ### Texts -/

/-- Whether a block comment is open behind each line, as the lexer carries it along. -/
def openFlags (line : Nat) (inComment : Bool) : List (List Char) → List Bool
  | [] => []
  | text :: texts =>
    let lexed := lexLine text line inComment
    lexed.2 :: openFlags (line + 1) lexed.2 texts

/-- What the lexer makes of a line is what the scanner makes of it, from the region on in which the
line starts. -/
structure Region.Describes (start : Region) (text : List Char) (tokens : List Token)
    (isOpen : Bool) : Prop where
  string_iff : ∀ k, (∃ t ∈ tokens, t.kind = .string ∧ t.StandsOver k) ↔
    (start.walk text)[k]?.map Prod.fst = some .string
  comment_iff : ¬(start.inBlockComment = true ∧ strip text = []) → ∀ k,
    (∃ t ∈ tokens, t.kind = .comment ∧ t.StandsOver k) ↔
      (start.walk text)[k]?.map Prod.fst = some .comment
  blank : start.inBlockComment = true ∧ strip text = [] → tokens = []
  /-- A literal has no closing quote exactly if the scanner does not leave it again. -/
  unterminated_iff : ∀ t ∈ tokens, t.kind = .string →
    (t.terminated = false ↔
      ∀ k p, t.column ≤ k → (start.walk text)[k]? = some p → p.2.inLiteral = true)
  open_iff : isOpen = true ↔ (start.behind text).inBlockComment = true

theorem Region.describes_lexLine (text : List Char) (line : Nat) (inComment : Bool) :
    (atStart inComment).Describes text (lexLine text line inComment).1
      (lexLine text line inComment).2 := by
  have hstart : (atStart inComment).inBlockComment = inComment := by cases inComment <;> rfl
  by_cases hblank : inComment = true ∧ strip text = []
  · obtain ⟨rfl, hstrip⟩ := hblank
    obtain ⟨htokens, hcomment⟩ := lexLine_blank line hstrip
    refine ⟨fun k => ?_, fun h => absurd ⟨rfl, hstrip⟩ h, fun _ => htokens, by simp [htokens], ?_⟩
    · have hne : ((atStart true).walk text)[k]?.map Prod.fst ≠ some .string := by
        intro h
        obtain ⟨p, hp, hclass⟩ := Option.map_eq_some_iff.1 h
        rw [hcomment p (List.mem_of_getElem? hp)] at hclass
        cases hclass
      simpa [htokens] using hne
    · rw [snd_lexLine_eq_inBlockComment]
  · have hagree := agree_lexLine line hblank
    refine ⟨fun k => ?_, fun _ k => ?_, ?_, ?_, ?_⟩
    · simpa only [TokenKind.charClass_eq_string, Nat.zero_add] using
        hagree.covered .string (by decide) k
    · simpa only [TokenKind.charClass_eq_comment, Nat.zero_add] using
        hagree.covered .comment (by decide) k
    · rw [hstart]
      exact fun h => absurd h hblank
    · simpa only [Nat.zero_add] using hagree.unterminated
    · rw [snd_lexLine_eq_inBlockComment]

/-- The lexer starts each line where the scanner stands behind the lines before it. -/
theorem exists_lexLine_of_getElem? {texts : List (List Char)} {i : Nat} {text : List Char}
    (h : texts[i]? = some text) (line : Nat) (inComment : Bool) :
    ∃ flag, Region.behindLines (Region.atStart inComment) (texts.take i) = Region.atStart flag ∧
      (lexLines line inComment texts)[i]? = some (lexLine text (line + i) flag).1 ∧
      (openFlags line inComment texts)[i]? = some (lexLine text (line + i) flag).2 := by
  induction texts generalizing i line inComment with
  | nil => simp at h
  | cons first texts ih =>
      cases i with
      | zero =>
          obtain rfl : first = text := by simpa using h
          exact ⟨inComment, rfl, rfl, rfl⟩
      | succ i =>
          obtain ⟨flag, hflag, htokens, hopen⟩ :=
            ih (by simpa using h) (line + 1) (lexLine first line inComment).2
          have hnext : ((Region.atStart inComment).behind first).nextLine =
              Region.atStart (lexLine first line inComment).2 := by
            rw [snd_lexLine_eq_inBlockComment]
            rfl
          refine ⟨flag, ?_, ?_, ?_⟩
          · rw [List.take_succ_cons, Region.behindLines, List.foldl_cons, hnext]
            exact hflag
          · rw [show line + (i + 1) = line + 1 + i by omega]
            exact htokens
          · rw [show line + (i + 1) = line + 1 + i by omega]
            exact hopen

/-- The comments and string literals of a text, as the lexer finds them, are those of the scanner
that reads it character by character. -/
theorem tokens_follow_regions (texts : List (List Char)) (i : Nat) (text : List Char)
    (htext : texts[i]? = some text) :
    ∃ tokens isOpen, (lexLines 0 false texts)[i]? = some tokens ∧
      (openFlags 0 false texts)[i]? = some isOpen ∧
      (Region.behindLines .code (texts.take i)).Describes text tokens isOpen := by
  obtain ⟨flag, hflag, htokens, hopen⟩ := exists_lexLine_of_getElem? htext 0 false
  refine ⟨_, _, htokens, hopen, ?_⟩
  have hdescribes := Region.describes_lexLine text (0 + i) flag
  rwa [← hflag] at hdescribes

/-- Comments that are hard to tell apart: `/*/` does not close itself, the line behind is blank, and
behind `*/` a star and a slash are operators again. -/
def knottyLines : List (List Char) :=
  ["x = \"//\" /*/".toList, "  ".toList, "*/*/ 'it\\'s' \"a\"\"b\\".toList]

theorem tokens_follow_regions_knotty :
    Region.behindLines .code (knottyLines.take 2) = .comment ∧
      ∃ tokens isOpen, (lexLines 0 false knottyLines)[2]? = some tokens ∧
        (openFlags 0 false knottyLines)[2]? = some isOpen ∧
        Region.comment.Describes "*/*/ 'it\\'s' \"a\"\"b\\".toList tokens isOpen := by
  have hstart : Region.behindLines .code (knottyLines.take 2) = .comment := by decide +kernel
  have h := tokens_follow_regions knottyLines 2 _ rfl
  rw [hstart] at h
  exact ⟨hstart, h⟩

end Polyloft
