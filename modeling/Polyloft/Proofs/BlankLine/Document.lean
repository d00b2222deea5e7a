import Polyloft.Proofs.BlankLine.Token
import Polyloft.Proofs.Scope.Builder

/-!
# Polyloft.Proofs.BlankLine.Document

A document with one more, empty line. Lexing reads the empty line without a trace, also inside a
comment, so the lines of the longer document are the old lines, those behind the new one moved, and
the new one in between (`Document.spaced_ofText`).

Rules walk over lines and look at the lines behind. For them it does not matter where the empty line
stands: `Spread` is the relation between some lines and the same lines with empty ones in between,
and whatever passes over empty lines is related by an induction over it.
-/

namespace Polyloft

open Polyloft.Text

/-! ### Lines -/

/-- The line with the number that it becomes. -/
def Line.moved (k : Nat) (l : Line) : Line :=
  ⟨movedLine k l.index, l.text, l.tokens.map (Token.moved k)⟩

/-- The empty line with a given number. -/
def Line.empty (n : Nat) : Line :=
  ⟨n, [], []⟩

namespace Line

variable (k : Nat) (l : Line)

@[simp] theorem index_moved : (l.moved k).index = movedLine k l.index := rfl

@[simp] theorem text_moved : (l.moved k).text = l.text := rfl

@[simp] theorem tokens_moved : (l.moved k).tokens = l.tokens.map (Token.moved k) := rfl

@[simp] theorem codeTokens_moved :
    (l.moved k).codeTokens = l.codeTokens.map (Token.moved k) :=
  Polyloft.codeTokens_moved k l.tokens

@[simp] theorem code_moved : (l.moved k).code = l.code := by
  rw [code, tokens_moved, List.foldl_map]
  rfl

@[simp] theorem masked_moved : (l.moved k).masked = l.masked := by
  rw [masked, tokens_moved, List.foldl_map, code_moved]
  rfl

@[simp] theorem isBlank_moved : (l.moved k).isBlank = l.isBlank := by
  rw [Line.isBlank, code_moved, Line.isBlank]

@[simp] theorem indent_moved : (l.moved k).indent = l.indent := rfl

@[simp] theorem codeTokens_empty (n : Nat) : (empty n).codeTokens = [] := rfl

@[simp] theorem isBlank_empty (n : Nat) : (empty n).isBlank = true := rfl

/-- A line that is read elsewhere is the line moved. -/
theorem moved_mk_lexLine (n : Nat) (text : List Char) (inComment : Bool) :
    (⟨n, text, (lexLine text n inComment).1⟩ : Line).moved k =
      ⟨movedLine k n, text, (lexLine text (movedLine k n) inComment).1⟩ := by
  rw [lexLine_moved]
  rfl

end Line

/-! ### Reading -/

/-- The lines of some texts, the first of them with number `n`. -/
def linesFrom (n : Nat) (inComment : Bool) (texts : List (List Char)) : List Line :=
  numberLines n texts (lexLines n inComment texts)

@[simp] theorem linesFrom_nil (n : Nat) (inComment : Bool) : linesFrom n inComment [] = [] := rfl

theorem linesFrom_cons (n : Nat) (inComment : Bool) (text : List Char) (texts : List (List Char)) :
    linesFrom n inComment (text :: texts) =
      ⟨n, text, (lexLine text n inComment).1⟩ ::
        linesFrom (n + 1) (lexLine text n inComment).2 texts :=
  rfl

theorem length_linesFrom (n : Nat) (inComment : Bool) (texts : List (List Char)) :
    (linesFrom n inComment texts).length = texts.length :=
  Document.numberLines_length n texts _ (lexLines_length n inComment texts)

/-- Lines behind the new one move by one. -/
theorem linesFrom_succ {k n : Nat} (hk : k ≤ n) (inComment : Bool) (texts : List (List Char)) :
    linesFrom (n + 1) inComment texts = (linesFrom n inComment texts).map (Line.moved k) := by
  induction texts generalizing n inComment with
  | nil => rfl
  | cons text texts ih =>
      have hmoved : movedLine k n = n + 1 := movedLine_of_le hk
      have hstate : (lexLine text (n + 1) inComment).2 = (lexLine text n inComment).2 := by
        rw [← hmoved, lexLine_moved]
      rw [linesFrom_cons, linesFrom_cons, List.map_cons, Line.moved_mk_lexLine, hmoved, hstate,
        ih (Nat.le_succ_of_le hk)]

/-- The empty line goes in, and the lines behind it move. -/
theorem linesFrom_insertIdx (n j : Nat) (inComment : Bool) (texts : List (List Char))
    (hj : j ≤ texts.length) :
    linesFrom n inComment (texts.insertIdx j []) =
      ((linesFrom n inComment texts).map (Line.moved (n + j))).insertIdx j
        (Line.empty (n + j)) := by
  induction j generalizing n inComment texts with
  | zero =>
      rw [List.insertIdx_zero, List.insertIdx_zero, linesFrom_cons, lexLine_nil, Nat.add_zero,
        linesFrom_succ (Nat.le_refl n)]
      rfl
  | succ j ih =>
      cases texts with
      | nil => simp at hj
      | cons text texts =>
          -- The first line keeps its number; the place is counted from the next line on.
          have hfirst : movedLine (n + (j + 1)) n = n := movedLine_of_lt (by omega)
          rw [List.insertIdx_succ_cons, linesFrom_cons, linesFrom_cons, List.map_cons,
            List.insertIdx_succ_cons, Line.moved_mk_lexLine, hfirst,
            ih (n + 1) _ texts (by simpa using hj), Nat.add_right_comm, Nat.add_assoc]

/-- The second document has one more line, an empty one before line `k`. -/
structure Document.Spaced (k : Nat) (doc doc' : Document) : Prop where
  le_size : k ≤ doc.size
  lines : doc'.lines = (doc.lines.map (Line.moved k)).insertIdx k (Line.empty k)

/-- The lines that a text is cut into. -/
def Text.linesOf (text : List Char) : List (List Char) :=
  splitLines (normaliseNewlines text)

/-- The text with one more, empty line before line `k`. -/
def Text.withBlankLine (k : Nat) (text : List Char) : List Char :=
  joinLines ((linesOf text).insertIdx k [])

theorem Text.splitOnChar_append {sep : Char} {piece : List Char} (hpiece : sep ∉ piece)
    (cs : List Char) : splitOnChar sep (piece ++ sep :: cs) = piece :: splitOnChar sep cs := by
  induction piece with
  | nil => simp [splitOnChar]
  | cons c piece ih =>
      rw [List.mem_cons, not_or] at hpiece
      rw [List.cons_append, splitOnChar, if_neg (Ne.symm hpiece.1), ih hpiece.2]
      rfl

theorem Text.splitOnChar_of_not_mem {sep : Char} {piece : List Char} (hpiece : sep ∉ piece) :
    splitOnChar sep piece = [piece] := by
  induction piece with
  | nil => rfl
  | cons c piece ih =>
      rw [List.mem_cons, not_or] at hpiece
      rw [splitOnChar, if_neg (Ne.symm hpiece.1), ih hpiece.2]
      rfl

/-- Joined lines are cut where they were joined. -/
theorem Text.splitLines_joinLines {lines : List (List Char)} (hne : lines ≠ [])
    (hlines : ∀ line ∈ lines, '\n' ∉ line) : splitLines (joinLines lines) = lines := by
  induction lines with
  | nil => exact absurd rfl hne
  | cons line lines ih =>
      have hline : '\n' ∉ line := hlines line (List.mem_cons_self ..)
      cases lines with
      | nil => exact splitOnChar_of_not_mem hline
      | cons next rest =>
          have hrest := ih (List.cons_ne_nil _ _) fun l hl => hlines l (List.mem_cons_of_mem _ hl)
          rw [joinLines, joinWith_cons (List.cons_ne_nil _ _), splitLines, splitOnChar_append hline]
          exact congrArg (line :: ·) hrest

theorem Text.normaliseNewlines_of_not_mem {cs : List Char} (h : '\r' ∉ cs) :
    normaliseNewlines cs = cs := by
  fun_induction normaliseNewlines cs with
  | case1 => rfl
  | case2 cs ih => simp at h
  | case3 cs _ ih => simp at h
  | case4 c cs _ _ ih => rw [ih fun hmem => h (List.mem_cons_of_mem _ hmem)]

theorem Text.not_mem_normaliseNewlines (cs : List Char) : '\r' ∉ normaliseNewlines cs := by
  fun_induction normaliseNewlines cs with
  | case1 => simp
  | case2 cs ih => simpa using ih
  | case3 cs _ ih => simpa using ih
  | case4 c cs _ hreturn ih =>
      rw [List.mem_cons, not_or]
      exact ⟨fun hc => hreturn hc.symm, ih⟩

/-- The characters of joined pieces are those of the pieces and the separator. -/
theorem Text.mem_joinWith {sep c : Char} {pieces : List (List Char)} :
    c ∈ joinWith sep pieces → c = sep ∨ ∃ piece ∈ pieces, c ∈ piece := by
  fun_induction joinWith sep pieces with
  | case1 => simp
  | case2 piece => exact fun h => .inr ⟨piece, List.mem_cons_self .., h⟩
  | case3 piece pieces _ ih =>
      rw [List.mem_append, List.mem_cons]
      rintro (h | rfl | h)
      · exact .inr ⟨piece, List.mem_cons_self .., h⟩
      · exact .inl rfl
      · rcases ih h with rfl | ⟨other, hother, hc⟩
        · exact .inl rfl
        · exact .inr ⟨other, List.mem_cons_of_mem _ hother, hc⟩

theorem Text.mem_joinWith_of_mem {sep c : Char} {piece : List Char} {pieces : List (List Char)}
    (hpiece : piece ∈ pieces) (hc : c ∈ piece) : c ∈ joinWith sep pieces := by
  fun_induction joinWith sep pieces with
  | case1 => simp at hpiece
  | case2 other => rwa [← List.mem_singleton.1 hpiece]
  | case3 other pieces _ ih =>
      rw [List.mem_append, List.mem_cons]
      rcases List.mem_cons.1 hpiece with rfl | hpiece
      · exact .inl hc
      · exact .inr (.inr (ih hpiece))

/-- The text with one more line is cut into the old lines and the new one. -/
theorem Text.linesOf_withBlankLine {k : Nat} {text : List Char} (hk : k ≤ (linesOf text).length) :
    linesOf (withBlankLine k text) = (linesOf text).insertIdx k [] := by
  have hmem (line : List Char) (hline : line ∈ (linesOf text).insertIdx k []) :
      line = [] ∨ line ∈ linesOf text :=
    (List.mem_insertIdx hk).1 hline
  have hreturn : '\r' ∉ withBlankLine k text := by
    intro h
    rcases mem_joinWith h with h | ⟨line, hline, h⟩
    · exact absurd h (by decide)
    · rcases hmem line hline with rfl | hline
      · simp at h
      · have htext : '\r' ∈ joinWith '\n' (linesOf text) := mem_joinWith_of_mem hline h
        rw [linesOf, splitLines, joinWith_splitOnChar] at htext
        exact not_mem_normaliseNewlines text htext
  rw [linesOf, normaliseNewlines_of_not_mem hreturn]
  refine splitLines_joinLines ?_ ?_
  · exact List.ne_nil_of_length_pos (by rw [List.length_insertIdx]; split <;> omega)
  · intro line hline
    rcases hmem line hline with rfl | hline
    · simp
    · exact not_mem_of_mem_splitOnChar hline

theorem Document.lines_ofText (text : List Char) (uri : Option String) :
    (ofText text uri).lines = linesFrom 0 false (linesOf text) := rfl

/-- A text with one more, empty line is read as the document with one more line. -/
theorem Document.spaced_ofText {k : Nat} {text text' : List Char} (uri : Option String)
    (hk : k ≤ (linesOf text).length) (htext : linesOf text' = (linesOf text).insertIdx k []) :
    Spaced k (ofText text uri) (ofText text' uri) where
  le_size := by
    rw [size, lines_ofText, length_linesFrom]
    exact hk
  lines := by
    rw [lines_ofText, lines_ofText, htext, linesFrom_insertIdx _ _ _ _ hk, Nat.zero_add]

/-- The tokens of a line stand on it. -/
theorem line_of_mem_linesFrom {n : Nat} {inComment : Bool} {texts : List (List Char)} {l : Line}
    (hl : l ∈ linesFrom n inComment texts) {t : Token} (ht : t ∈ l.tokens) : t.line = l.index := by
  induction texts generalizing n inComment with
  | nil => simp at hl
  | cons text texts ih =>
      rw [linesFrom_cons] at hl
      rcases List.mem_cons.1 hl with rfl | hl
      · exact line_of_mem_lexLine ht
      · exact ih hl

/-! ### Lines with empty ones in between -/

/-- The second list holds the lines of the first one, moved, and empty lines in between. -/
inductive Spread (k : Nat) : List Line → List Line → Prop
  | nil : Spread k [] []
  | line (l : Line) {ls ls' : List Line} (h : Spread k ls ls') :
      Spread k (l :: ls) (l.moved k :: ls')
  | empty (n : Nat) {ls ls' : List Line} (h : Spread k ls ls') : Spread k ls (Line.empty n :: ls')

namespace Spread

variable {k : Nat} {ls ls' : List Line}

theorem map_moved (ls : List Line) : Spread k ls (ls.map (Line.moved k)) := by
  induction ls with
  | nil => exact .nil
  | cons l ls ih => exact .line l ih

theorem insertIdx (j : Nat) (ls : List Line) (hj : j ≤ ls.length) :
    Spread k ls ((ls.map (Line.moved k)).insertIdx j (Line.empty k)) := by
  induction j generalizing ls with
  | zero =>
      rw [List.insertIdx_zero]
      exact .empty k (map_moved ls)
  | succ j ih =>
      cases ls with
      | nil => simp at hj
      | cons l ls =>
          rw [List.map_cons, List.insertIdx_succ_cons]
          exact .line l (ih ls (by simpa using hj))

/-- The lines behind a line. -/
theorem insertIdx_drop (j n : Nat) (ls : List Line) (hj : j ≤ ls.length) :
    Spread k (ls.drop (n + 1))
      (((ls.map (Line.moved k)).insertIdx j (Line.empty k)).drop (movedLine j n + 1)) := by
  induction j generalizing ls n with
  | zero =>
      rw [List.insertIdx_zero, movedLine_of_le (Nat.zero_le n), List.drop_succ_cons,
        ← List.map_drop]
      exact map_moved _
  | succ j ih =>
      cases ls with
      | nil => simp at hj
      | cons l ls =>
          have hj : j ≤ ls.length := by simpa using hj
          rw [List.map_cons, List.insertIdx_succ_cons, List.drop_succ_cons, List.drop_succ_cons]
          cases n with
          | zero =>
              -- The line stays, and the empty one is among the lines behind it.
              rw [movedLine_of_lt (Nat.succ_pos j)]
              exact insertIdx j ls hj
          | succ n =>
              have hmoved : movedLine (j + 1) (n + 1) = movedLine j n + 1 := by
                unfold movedLine
                split <;> split <;> omega
              rw [hmoved]
              exact ih n ls hj

/-- What every line gives is given by the moved line too, and empty lines give nothing. -/
theorem flatMap {α β : Type} {f : Line → List α} {g : Line → List β} {m : α → β}
    (h : Spread k ls ls') (hline : ∀ l ∈ ls, g (l.moved k) = (f l).map m)
    (hempty : ∀ n, g (Line.empty n) = []) : ls'.flatMap g = (ls.flatMap f).map m := by
  induction h with
  | nil => rfl
  | line l h ih =>
      rw [List.flatMap_cons, List.flatMap_cons, List.map_append, hline l (List.mem_cons_self ..),
        ih fun l' hl' => hline l' (List.mem_cons_of_mem _ hl')]
  | empty n h ih => rw [List.flatMap_cons, hempty, List.nil_append, ih hline]

theorem filterMap {α β : Type} {f : Line → Option α} {g : Line → Option β} {m : α → β}
    (h : Spread k ls ls') (hline : ∀ l ∈ ls, g (l.moved k) = (f l).map m)
    (hempty : ∀ n, g (Line.empty n) = none) : ls'.filterMap g = (ls.filterMap f).map m := by
  induction h with
  | nil => rfl
  | line l h ih =>
      rw [List.filterMap_cons, List.filterMap_cons, hline l (List.mem_cons_self ..),
        ih fun l' hl' => hline l' (List.mem_cons_of_mem _ hl')]
      cases f l <;> rfl
  | empty n h ih =>
      rw [List.filterMap_cons, hempty]
      exact ih hline

/-- The first line that satisfies a condition which empty lines do not. -/
theorem find? {p q : Line → Bool} (h : Spread k ls ls') (hline : ∀ l, q (l.moved k) = p l)
    (hempty : ∀ n, q (Line.empty n) = false) : ls'.find? q = (ls.find? p).map (Line.moved k) := by
  induction h with
  | nil => rfl
  | line l h ih =>
      rw [List.find?_cons, List.find?_cons, hline, ih]
      cases p l <;> rfl
  | empty n h ih => rw [List.find?_cons, hempty, ih]

theorem filter {p q : Line → Bool} (h : Spread k ls ls') (hline : ∀ l, q (l.moved k) = p l) :
    Spread k (ls.filter p) (ls'.filter q) := by
  induction h with
  | nil => exact .nil
  | line l h ih =>
      rw [List.filter_cons, List.filter_cons, hline]
      split
      · exact .line l ih
      · exact ih
  | empty n h ih =>
      rw [List.filter_cons]
      split
      · exact .empty n ih
      · exact ih

end Spread

/-! ### Documents -/

namespace Document.Spaced

variable {k : Nat} {doc doc' : Document} (h : Spaced k doc doc')
include h

theorem spread : Spread k doc.lines doc'.lines := by
  rw [h.lines]
  exact .insertIdx k doc.lines h.le_size

theorem spread_drop (n : Nat) :
    Spread k (doc.lines.drop (n + 1)) (doc'.lines.drop (movedLine k n + 1)) := by
  rw [h.lines]
  exact .insertIdx_drop k n doc.lines h.le_size

theorem getElem?_lines (n : Nat) :
    doc'.lines[movedLine k n]? = (doc.lines[n]?).map (Line.moved k) := by
  rw [h.lines]
  by_cases hn : n < k
  · rw [movedLine_of_lt hn, List.getElem?_insertIdx_of_lt hn, List.getElem?_map]
  · have hk : k ≤ n := Nat.not_lt.1 hn
    rw [movedLine_of_le hk, List.getElem?_insertIdx_of_gt (Nat.lt_succ_of_le hk),
      List.getElem?_map]
    rfl

theorem lineAt (n : Nat) {l : Line} (hl : doc.lineAt n = .ok l) :
    doc'.lineAt (movedLine k n) = .ok (l.moved k) := by
  unfold Document.lineAt at hl ⊢
  rw [h.getElem?_lines]
  cases hget : doc.lines[n]? with
  | none =>
      rw [hget] at hl
      simp at hl
  | some l' =>
      rw [hget] at hl
      obtain rfl := Except.ok.inj hl
      rfl

/-- The code tokens of the document, moved. -/
theorem codeTokens : doc'.codeTokens = doc.codeTokens.map (Token.moved k) :=
  h.spread.flatMap (fun l _ => l.codeTokens_moved k) fun _ => rfl

/-- The token lists of the lines, with an empty one put in. -/
theorem exists_map_codeTokens : ∃ before after, before.length = k ∧
    doc.lines.map Line.codeTokens = before ++ after ∧
    doc'.lines.map Line.codeTokens =
      before.map (List.map (Token.moved k)) ++ [] :: after.map (List.map (Token.moved k)) := by
  obtain ⟨before, after, hlines, hlength, hinsert⟩ := List.exists_of_modifyTailIdx
    (List.cons (Line.empty k)) (show k ≤ (doc.lines.map (Line.moved k)).length by
      rw [List.length_map]
      exact h.le_size)
  obtain ⟨ls, ls', hsplit, rfl, rfl⟩ := List.map_eq_append_iff.1 hlines
  refine ⟨ls.map Line.codeTokens, ls'.map Line.codeTokens, by simpa using hlength,
    by rw [hsplit, List.map_append], ?_⟩
  have hinsert : doc'.lines =
      ls.map (Line.moved k) ++ Line.empty k :: ls'.map (Line.moved k) := by
    rw [h.lines]
    exact hinsert
  have hmoved (ls : List Line) : (ls.map (Line.moved k)).map Line.codeTokens =
      (ls.map Line.codeTokens).map (List.map (Token.moved k)) := by
    rw [List.map_map, List.map_map]
    exact List.map_congr_left fun l _ => l.codeTokens_moved k
  rw [hinsert, List.map_append, List.map_cons, hmoved, hmoved, Line.codeTokens_empty]

end Document.Spaced

end Polyloft
