import Polyloft.Proofs.BlankLine.Document
import Polyloft.Proofs.Token.Numeral

/-!
# Polyloft.Proofs.Comment.Scan

Which characters of a text stand outside of comments. A scanner with a handful of states says it
without any notion of a token: it knows comments, string literals and everything else, and looks at
one character and the one behind it (`Region.scan`).

The lexer agrees with it. A lexeme is a comment, a string literal, or made of characters that start
neither (`Lexeme.Reads`); in each case the scanner passes over it in one piece, which is hidden if
the lexeme is a comment and shown if it is not (`Region.scan_of_reads`).
-/

namespace Polyloft

open Polyloft.Text

/-! ### The scanner -/

/-- What the scanner is in the middle of. -/
inductive Region where
  | code
  /-- A string literal, with the quote that closes it. -/
  | literal (quote : Char)
  /-- A string literal, just behind a backslash. -/
  | escape (quote : Char)
  | lineComment
  /-- A block comment, at the star of its `/*`. -/
  | opening
  | comment
  /-- A block comment, at the slash of its `*/`. -/
  | closing
deriving DecidableEq, Repr

namespace Region

/-- Does a comment start at a character? -/
def startsComment (c : Char) (following : Option Char) : Bool :=
  c == '/' && (following == some '/' || following == some '*')

/-- The region behind a character, given the character that follows it. -/
def next (c : Char) (following : Option Char) : Region → Region
  | code =>
    if startsComment c following then
      if following = some '/' then lineComment else opening
    else if c = '"' ∨ c = '\'' then literal c
    else code
  | literal quote =>
    if c = '\\' then escape quote else if c = quote then code else literal quote
  | escape quote => literal quote
  | lineComment => lineComment
  | opening => comment
  | comment => if c = '*' ∧ following = some '/' then closing else comment
  | closing => code

/-- Does a character stand in a comment? -/
def hides (c : Char) (following : Option Char) : Region → Bool
  | code => startsComment c following
  | literal _ => false
  | escape _ => false
  | _ => true

/-- The characters of a line outside of comments, each at its place, and whether a block comment is
open where the line ends. -/
def scan : Region → List Char → List (Option Char) × Bool
  | r, [] => ([], r == comment)
  | r, c :: cs =>
    let rest := scan (r.next c cs.head?) cs
    ((if r.hides c cs.head? then none else some c) :: rest.1, rest.2)

/-- The region in which a line starts. -/
def atStart (inComment : Bool) : Region :=
  if inComment then comment else code

end Region

/-- The characters of some lines outside of comments, each at its place; `inComment` says whether a
comment is open where they start. -/
def shownLines (inComment : Bool) : List (List Char) → List (List (Option Char))
  | [] => []
  | text :: texts =>
    let scanned := (Region.atStart inComment).scan text
    scanned.1 :: shownLines scanned.2 texts

/-- The characters of a text outside of comments, line by line and each at its place: what is equal
for two texts that have the same lines, up to characters inside of comments. -/
def outsideComments (text : List Char) : List (List (Option Char)) :=
  shownLines false (linesOf text)

namespace Region

/-- Characters that start neither a comment nor a string literal. -/
def isPlain (c : Char) : Bool :=
  c != '/' && c != '"' && c != '\''

@[simp] theorem scan_nil (r : Region) : r.scan [] = ([], r == comment) := by
  cases r <;> rfl

theorem scan_cons (r : Region) (c : Char) (cs : List Char) :
    r.scan (c :: cs) = ((if r.hides c cs.head? then none else some c) ::
      (scan (r.next c cs.head?) cs).1, (scan (r.next c cs.head?) cs).2) := by
  cases r <;> rfl

@[simp] theorem length_scan (r : Region) (cs : List Char) : (r.scan cs).1.length = cs.length := by
  induction cs generalizing r with
  | nil => simp
  | cons c cs ih => simp [scan_cons, ih]

/-! ### Runs of characters -/

theorem scan_lineComment (cs : List Char) :
    lineComment.scan cs = (cs.map fun _ => none, false) := by
  induction cs with
  | nil => rfl
  | cons c cs ih =>
      rw [scan_cons, next, ih]
      rfl

theorem scan_code_of_isPlain {c : Char} (h : isPlain c = true) (cs : List Char) :
    code.scan (c :: cs) = (some c :: (code.scan cs).1, (code.scan cs).2) := by
  simp only [isPlain, Bool.and_eq_true, bne_iff_ne] at h
  obtain ⟨⟨hslash, hquote⟩, hsingle⟩ := h
  simp [scan_cons, next, hides, startsComment, hslash, hquote, hsingle]

/-- Characters that start nothing are shown. -/
theorem scan_code_append {w : List Char} (hw : ∀ c ∈ w, isPlain c = true) (cs : List Char) :
    code.scan (w ++ cs) = (w.map some ++ (code.scan cs).1, (code.scan cs).2) := by
  induction w with
  | nil => rfl
  | cons c w ih =>
      rw [List.forall_mem_cons] at hw
      rw [List.cons_append, scan_code_of_isPlain hw.1, ih hw.2]
      rfl

theorem ne_backslash {c : Char} {cs : List Char} (hlast : c = '\\' → cs = [] → False)
    (hescape : ∀ d ds, c = '\\' → cs = d :: ds → False) : c ≠ '\\' := by
  intro hc
  cases cs with
  | nil => exact hlast hc rfl
  | cons d ds => exact hescape d ds hc rfl

/-- A string literal is shown through its closing quote. -/
theorem scan_literal_of_closed {quote : Char} (hquote : quote ≠ '\\') {cs : List Char} {n : Nat}
    (h : closingQuote? quote cs = some n) :
    (literal quote).scan cs =
      ((cs.take n).map some ++ (code.scan (cs.drop n)).1, (code.scan (cs.drop n)).2) := by
  fun_induction closingQuote? quote cs generalizing n with
  | case1 => simp at h
  | case2 => simp at h
  | case3 c cs ih =>
      obtain ⟨m, hm, rfl⟩ := Option.map_eq_some_iff.1 h
      simp [scan_cons, next, hides, ih hm]
  | case4 cs _ _ =>
      obtain rfl := Option.some.inj h
      simp [scan_cons, next, hides, hquote]
  | case5 c cs hlast hescape hne ih =>
      obtain ⟨m, hm, rfl⟩ := Option.map_eq_some_iff.1 h
      have hback := ne_backslash hlast hescape
      simp [scan_cons, next, hides, hback, hne, ih hm]

/-- A string literal that is not closed is shown to the end. -/
theorem scan_literal_of_open {quote : Char} {cs : List Char} (h : closingQuote? quote cs = none) :
    (literal quote).scan cs = (cs.map some, false) := by
  fun_induction closingQuote? quote cs with
  | case1 => rfl
  | case2 => simp [scan_cons, next, hides]
  | case3 c cs ih => simp [scan_cons, next, hides, ih (Option.map_eq_none_iff.1 h)]
  | case4 => simp at h
  | case5 c cs hlast hescape hne ih =>
      have hback := ne_backslash hlast hescape
      simp [scan_cons, next, hides, hback, hne, ih (Option.map_eq_none_iff.1 h)]

theorem next_comment {c : Char} {cs : List Char} (h : ∀ ds, c = '*' → cs = '/' :: ds → False) :
    comment.next c cs.head? = comment := by
  rw [next, if_neg]
  rintro ⟨hc, hhead⟩
  obtain ⟨ds, hcs⟩ := List.head?_eq_some_iff.1 hhead
  exact h ds hc hcs

/-- A block comment is hidden through its `*/`. -/
theorem scan_comment_of_closed {cs : List Char} {n : Nat} (h : commentClose? cs = some n) :
    comment.scan cs = ((cs.take n).map (fun _ => none) ++ (code.scan (cs.drop n)).1,
      (code.scan (cs.drop n)).2) := by
  fun_induction commentClose? cs generalizing n with
  | case1 cs =>
      obtain rfl := Option.some.inj h
      simp [scan_cons, next, hides]
  | case2 c cs hclose ih =>
      obtain ⟨m, hm, rfl⟩ := Option.map_eq_some_iff.1 h
      have hnext := next_comment hclose
      simp [scan_cons, hnext, hides, ih hm]
  | case3 => simp at h

/-- A block comment that is not closed is hidden to the end. -/
theorem scan_comment_of_open {cs : List Char} (h : commentClose? cs = none) :
    comment.scan cs = (cs.map fun _ => none, true) := by
  fun_induction commentClose? cs with
  | case1 cs => simp at h
  | case2 c cs hclose ih =>
      have hnext := next_comment hclose
      simp [scan_cons, hnext, hides, ih (Option.map_eq_none_iff.1 h)]
  | case3 => rfl

end Region

/-! ### Lexemes -/

namespace Lexeme

open Region

/-- The lexeme at a place, told by the first character and the one behind it. -/
theorem at_eq (c : Char) (cs : List Char) :
    Lexeme.at c cs =
      if startsComment c cs.head? then
        if cs.head? = some '/' then ⟨.comment, cs.length, true, false⟩
        else match commentClose? cs.tail with
          | some n => ⟨.comment, n + 1, true, false⟩
          | none => ⟨.comment, cs.length, true, true⟩
      else if c = '@' then
        if cs.head?.any isNameStart then
          ⟨.marker, 1 + (cs.tail.takeWhile isWord).length, true, false⟩
        else ⟨.unknown, 0, true, false⟩
      else if c = '"' ∨ c = '\'' then
        match closingQuote? c cs with
        | some n => ⟨.string, n, true, false⟩
        | none => ⟨.string, cs.length, false, false⟩
      else if isDecimal c then number cs
      else if isNameStart c then name c cs
      else sign c cs := by
  unfold Lexeme.at
  split
  · rfl
  · rfl
  · rfl
  · rename_i hline hblock hmarker
    have hstart : ¬startsComment c cs.head? = true := by
      intro hstart
      simp only [startsComment, Bool.and_eq_true, Bool.or_eq_true, beq_iff_eq,
        List.head?_eq_some_iff] at hstart
      obtain ⟨hc, ⟨ds, hcs⟩ | ⟨ds, hcs⟩⟩ := hstart
      · exact hline ds hc hcs
      · exact hblock ds hc hcs
    rw [if_neg hstart]
    by_cases hat : c = '@'
    · obtain rfl := hat
      cases cs with
      | nil => decide +kernel
      | cons d ds => exact (hmarker d ds rfl rfl).elim
    · exact (if_neg hat).symm

/-- What the lexeme at a place can be: a comment, a string literal, or something made of characters
that start neither, up to the first. -/
inductive Reads (c : Char) (cs : List Char) : Lexeme → Prop where
  | lineComment {ds : List Char} (hc : c = '/') (hcs : cs = '/' :: ds) :
      Reads c cs ⟨.comment, cs.length, true, false⟩
  | closedComment {inner : List Char} {n : Nat} (hc : c = '/') (hcs : cs = '*' :: inner)
      (hclose : commentClose? inner = some n) : Reads c cs ⟨.comment, n + 1, true, false⟩
  | openComment {inner : List Char} (hc : c = '/') (hcs : cs = '*' :: inner)
      (hclose : commentClose? inner = none) : Reads c cs ⟨.comment, cs.length, true, true⟩
  | closedString {n : Nat} (hquote : c = '"' ∨ c = '\'') (hclose : closingQuote? c cs = some n) :
      Reads c cs ⟨.string, n, true, false⟩
  | openString (hquote : c = '"' ∨ c = '\'') (hclose : closingQuote? c cs = none) :
      Reads c cs ⟨.string, cs.length, false, false⟩
  | plain {x : Lexeme} (hstart : startsComment c cs.head? = false)
      (hquote : ¬(c = '"' ∨ c = '\'')) (hkind : x.kind ≠ .comment) (hopens : x.opens = false)
      (htail : ∀ d ∈ cs.take x.tail, isPlain d = true) : Reads c cs x

theorem isPlain_of {p : Char → Bool} (hslash : p '/' = false) (hquote : p '"' = false)
    (hsingle : p '\'' = false) {c : Char} (hc : p c = true) : isPlain c = true := by
  simp only [isPlain, Bool.and_eq_true, bne_iff_ne]
  refine ⟨⟨?_, ?_⟩, ?_⟩
  · rintro rfl
    simp [hslash] at hc
  · rintro rfl
    simp [hquote] at hc
  · rintro rfl
    simp [hsingle] at hc

theorem isPlain_of_isWord {c : Char} (h : isWord c = true) : isPlain c = true :=
  isPlain_of (by decide +kernel) (by decide +kernel) (by decide +kernel) h

theorem isPlain_of_mem_takeWhile {cs : List Char} {d : Char} (hd : d ∈ cs.takeWhile isWord) :
    isPlain d = true :=
  isPlain_of_isWord (List.mem_takeWhile_imp hd)

theorem isPlain_of_marker {cs : List Char} (hname : cs.head?.any isNameStart = true) {d : Char}
    (hd : d ∈ cs.take (1 + (cs.tail.takeWhile isWord).length)) : isPlain d = true := by
  obtain ⟨a, ha, hname⟩ := (Option.any_eq_true ..).1 hname
  obtain ⟨ds, rfl⟩ := List.head?_eq_some_iff.1 ha
  rw [List.tail_cons, Nat.add_comm, List.take_succ_cons, take_length_takeWhile] at hd
  rcases List.mem_cons.1 hd with rfl | hd
  · exact isPlain_of_isWord (isWord_of_isNameStart hname)
  · exact isPlain_of_mem_takeWhile hd

theorem isPlain_of_isDecimal {c : Char} (h : isDecimal c = true) : isPlain c = true :=
  isPlain_of (by decide +kernel) (by decide +kernel) (by decide +kernel) h

/-- A numeral has digits and a point. -/
theorem isDecimal_or_eq_of_isNumeral {text : List Char} (h : Rule.isNumeral text = true) {d : Char}
    (hd : d ∈ text) : isDecimal d = true ∨ d = '.' := by
  rw [← List.takeWhile_append_dropWhile (p := (· != '.')) (l := text)] at hd
  simp only [Rule.isNumeral, Bool.and_eq_true, List.all_eq_true] at h
  obtain ⟨⟨-, hwhole⟩, hfraction⟩ := h
  rcases List.mem_append.1 hd with hd | hd
  · exact .inl (hwhole d hd)
  · split at hfraction
    · rename_i hnil
      rw [hnil] at hd
      simp at hd
    · rename_i point digits hcons
      have hpoint : (point != '.') = false := by
        have hhead := List.head?_dropWhile_not (· != '.') text
        rw [hcons] at hhead
        simpa using hhead
      simp only [Bool.and_eq_true, List.all_eq_true] at hfraction
      rw [hcons] at hd
      rcases List.mem_cons.1 hd with rfl | hd
      · exact .inr (bne_eq_false_iff_eq.1 hpoint)
      · exact .inl (hfraction.2 d hd)

theorem isPlain_of_isNumeral {text : List Char} (h : Rule.isNumeral text = true) {d : Char}
    (hd : d ∈ text) : isPlain d = true := by
  rcases isDecimal_or_eq_of_isNumeral h hd with hd | rfl
  · exact isPlain_of_isDecimal hd
  · rfl

/-- Only the first character of an operator can start a comment. -/
theorem isPlain_of_mem_operators {op : String} (hop : op ∈ operators) {d : Char}
    (hd : d ∈ op.toList.tail) : isPlain d = true := by
  have h : (operators.all fun op => op.toList.tail.all isPlain) = true := by decide +kernel
  exact List.all_eq_true.1 (List.all_eq_true.1 h op hop) d hd

/-- The characters of an operator stand in the text. -/
theorem take_of_operatorAt? {c : Char} {cs : List Char} {op : String}
    (h : operatorAt? (c :: cs) = some op) : c :: cs.take (op.length - 1) = op.toList := by
  have hne : op.toList ≠ [] := by
    have hall : (operators.all fun op => op.toList != []) = true := by decide +kernel
    simpa using List.all_eq_true.1 hall op (List.mem_of_find?_eq_some h)
  have hprefix : op.toList.isPrefixOf (c :: cs) = true := by
    simpa using List.find?_some h
  obtain ⟨rest, hrest⟩ := List.isPrefixOf_iff_prefix.1 hprefix
  cases hchars : op.toList with
  | nil => exact absurd hchars hne
  | cons e es =>
      rw [hchars, List.cons_append] at hrest
      obtain ⟨rfl, rfl⟩ := List.cons.inj hrest
      simp [← String.length_toList, hchars]

theorem isPlain_of_sign {c : Char} {cs : List Char} {d : Char} (hd : d ∈ cs.take (sign c cs).tail) :
    isPlain d = true := by
  unfold sign at hd
  split at hd
  · rename_i op hop
    have hmem := List.mem_of_find?_eq_some hop
    have htail : cs.take (op.length - 1) = op.toList.tail := by rw [← take_of_operatorAt? hop]; rfl
    rw [htail] at hd
    exact isPlain_of_mem_operators hmem hd
  · split at hd <;> simp at hd

theorem isCode_number (cs : List Char) :
    (number cs).kind ≠ .comment ∧ (number cs).opens = false := by
  unfold number
  dsimp only
  repeat' split
  all_goals simp

theorem isCode_sign (c : Char) (cs : List Char) :
    (sign c cs).kind ≠ .comment ∧ (sign c cs).opens = false := by
  unfold sign
  repeat' split
  all_goals simp

theorem reads_at (c : Char) (cs : List Char) : Reads c cs (Lexeme.at c cs) := by
  rw [at_eq]
  split
  · rename_i hstart
    simp only [startsComment, Bool.and_eq_true, Bool.or_eq_true, beq_iff_eq,
      List.head?_eq_some_iff] at hstart
    obtain ⟨hc, ⟨ds, rfl⟩ | ⟨inner, rfl⟩⟩ := hstart
    · exact .lineComment hc rfl
    · rw [List.head?_cons, if_neg (by decide), List.tail_cons]
      split
      · exact .closedComment hc rfl ‹_›
      · exact .openComment hc rfl ‹_›
  · rename_i hstart
    have hstart := Bool.eq_false_iff.2 hstart
    split
    · rename_i hc
      have hquote : ¬(c = '"' ∨ c = '\'') := by rw [hc]; decide
      split
      · exact .plain hstart hquote (by simp) rfl fun d => isPlain_of_marker ‹_›
      · exact .plain hstart hquote (by simp) rfl (by simp)
    · split
      · rename_i hquote
        split
        · exact .closedString hquote ‹_›
        · exact .openString hquote ‹_›
      · rename_i hquote
        split
        · rename_i hdecimal
          have hnumeral := isNumeral_number cs hdecimal
          exact .plain hstart hquote (isCode_number cs).1 (isCode_number cs).2 fun d hd =>
            isPlain_of_isNumeral hnumeral (List.mem_cons_of_mem _ hd)
        · split
          · refine .plain hstart hquote ?_ rfl ?_
            · simp only [name]
              split <;> simp
            · intro d hd
              rw [name, take_length_takeWhile] at hd
              exact isPlain_of_mem_takeWhile hd
          · exact .plain hstart hquote (isCode_sign c cs).1 (isCode_sign c cs).2 fun d =>
              isPlain_of_sign

/-- What is neither a comment nor a literal is made of characters that start neither. -/
theorem reads_plain {c : Char} {cs : List Char} (hcomment : (Lexeme.at c cs).kind ≠ .comment)
    (hstring : (Lexeme.at c cs).kind ≠ .string) :
    startsComment c cs.head? = false ∧ ¬(c = '"' ∨ c = '\'') ∧
      ∀ d ∈ cs.take (Lexeme.at c cs).tail, isPlain d = true := by
  have hreads := reads_at c cs
  generalize Lexeme.at c cs = x at hreads hcomment hstring
  cases hreads with
  | lineComment | closedComment | openComment => exact absurd rfl hcomment
  | closedString | openString => exact absurd rfl hstring
  | plain hstart hquote _ _ htail => exact ⟨hstart, hquote, htail⟩

end Lexeme

/-- A character of a token as the scanner shows it. -/
def TokenKind.shown (kind : TokenKind) (c : Char) : Option Char :=
  if kind = .comment then none else some c

@[simp] theorem TokenKind.shown_comment : TokenKind.comment.shown = fun _ => none := rfl

theorem TokenKind.shown_of_ne {kind : TokenKind} (h : kind ≠ .comment) : kind.shown = some := by
  funext c
  rw [shown, if_neg h]

/-- The scanner passes over a lexeme in one piece. -/
theorem Region.scan_of_reads {c : Char} {cs : List Char} {x : Lexeme} (h : Lexeme.Reads c cs x) :
    code.scan (c :: cs) =
      ((c :: cs.take x.tail).map x.kind.shown ++ (code.scan (cs.drop x.tail)).1,
        x.opens || (code.scan (cs.drop x.tail)).2) := by
  cases h with
  | lineComment hc hcs =>
      subst hc hcs
      simp [scan_cons, next, hides, startsComment, scan_lineComment]
  | closedComment hc hcs hclose =>
      subst hc hcs
      simp [scan_cons, next, hides, startsComment, scan_comment_of_closed hclose]
  | openComment hc hcs hclose =>
      subst hc hcs
      simp [scan_cons, next, hides, startsComment, scan_comment_of_open hclose]
  | closedString hquote hclose =>
      have hback : c ≠ '\\' := by rcases hquote with rfl | rfl <;> decide
      have hslash : c ≠ '/' := by rcases hquote with rfl | rfl <;> decide
      simp [scan_cons, next, hides, startsComment, hquote, hslash,
        scan_literal_of_closed hback hclose, TokenKind.shown_of_ne]
  | openString hquote hclose =>
      have hslash : c ≠ '/' := by rcases hquote with rfl | rfl <;> decide
      simp [scan_cons, next, hides, startsComment, hquote, hslash, scan_literal_of_open hclose,
        TokenKind.shown_of_ne]
  | plain hstart hquote hkind hopens htail =>
      have hrest := scan_code_append htail (cs.drop x.tail)
      rw [List.take_append_drop] at hrest
      simp [scan_cons, next, hides, hstart, hquote, hrest, hopens, TokenKind.shown_of_ne hkind]

end Polyloft
