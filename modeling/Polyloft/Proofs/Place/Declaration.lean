import Polyloft.Proofs.Declaration.Column
import Polyloft.Proofs.Place.Token

/-!
# Polyloft.Proofs.Place.Declaration

Declared names are places on their line. A name is read by a cursor that stands on the masked text
of the line, so it starts inside the text; what is cut from there cannot reach further than the
text does. Parameters and imported names are placed by counting: the pieces of a list are laid out
one behind the other with one separator between them, a name is no longer than its piece without
the blanks around it, and the three dots of a variadic parameter stand in its piece before the name.

## Proof shape

Each reading step keeps the cursor on the text. One lemma for each shape says where its names start.
`DeclarationTable.Covered` says that everything in a table stands on a line of the document; a line
adds only what stands on it (`covered_addLine`).
-/

namespace Polyloft

open Polyloft.Text

/-! ### Cursors -/

namespace Text.Cursor

variable {c c' : Cursor} {cs : List Char}

theorem Within.pos_lt (h : c.Within cs) (hrest : c.rest ≠ []) : c.pos < cs.length := by
  rcases Nat.lt_or_ge c.pos cs.length with hlt | hge
  · exact hlt
  · rw [Within, List.drop_eq_nil_of_le hge] at h
    exact absurd h.symm hrest

theorem Within.skipWhile (h : c.Within cs) (p : Char → Bool) : (c.skipWhile p).Within cs :=
  h.advance _

theorem Within.skipBlanks (h : c.Within cs) : c.skipBlanks.Within cs :=
  h.advance _

theorem Within.blanks? (h : c.Within cs) (hc : c.blanks? = some c') : c'.Within cs := by
  unfold Cursor.blanks? at hc
  split at hc
  · obtain rfl := Option.some.inj hc
    exact h.skipBlanks
  · simp at hc

theorem Within.literal? (h : c.Within cs) {w : String} (hc : c.literal? w = some c') :
    c'.Within cs := by
  unfold Cursor.literal? at hc
  split at hc
  · obtain rfl := Option.some.inj hc
    exact h.advance _
  · simp at hc

theorem Within.word? (h : c.Within cs) {w : String} (hc : c.word? w = some c') :
    c'.Within cs := by
  obtain ⟨d, hd, hc⟩ := Option.bind_eq_some_iff.1 hc
  exact (h.literal? hd).blanks? hc

theorem Within.run? (h : c.Within cs) {first more : Char → Bool} {s : Span}
    (hc : c.run? first more = some (s, c')) : s.start < cs.length ∧ c'.Within cs := by
  unfold Cursor.run? at hc
  split at hc
  · simp at hc
  · rename_i d ds hrest
    split at hc
    · obtain ⟨rfl, rfl⟩ := Prod.mk.inj (Option.some.inj hc)
      exact ⟨h.pos_lt (by simp [hrest]), h.advance _⟩
    · simp at hc

theorem Within.many (h : c.Within cs) {step : Cursor → Option Cursor}
    (hstep : ∀ {c c' : Cursor}, c.Within cs → step c = some c' → c'.Within cs) :
    (c.many step).Within cs := by
  fun_induction Cursor.many step c with
  | case1 c hc => exact h
  | case2 c c' hc hlt ih => exact ih (hstep h hc)
  | case3 c c' hc hlt => exact h

end Text.Cursor

/-! ### Shapes -/

namespace Shape

open Text.Cursor

variable {c c' : Cursor} {cs : List Char}

theorem within_marker? (h : c.Within cs) (hc : marker? c = some c') : c'.Within cs := by
  obtain ⟨r, hr, hc⟩ := Option.bind_eq_some_iff.1 hc
  obtain ⟨d, hd, hr⟩ := Option.bind_eq_some_iff.1 hr
  exact ((h.literal? hd).run? hr).2.blanks? hc

theorem within_modifier? (h : c.Within cs) (hc : modifier? c = some c') : c'.Within cs := by
  obtain ⟨w, -, hw⟩ := List.exists_of_findSome?_eq_some hc
  exact h.word? hw

theorem within_skipPrefix (cs : List Char) : (skipPrefix (Cursor.ofText cs)).Within cs := by
  have hstart := (Cursor.within_ofText cs).skipBlanks
  exact (hstart.many within_marker?).many within_modifier?

theorem within_optionally (h : c.Within cs) (sign : String) : (optionally c sign).Within cs := by
  unfold optionally
  cases hc : c.literal? sign with
  | none => exact h
  | some d => exact h.literal? hc

/-- The span is that of a run which a cursor on the text has read. -/
def Reads (cs : List Char) (first more : Char → Bool) (s : Span) : Prop :=
  ∃ c c' : Cursor, c.Within cs ∧ c.run? first more = some (s, c')

theorem Reads.start_lt {first more : Char → Bool} {s : Span} (h : Reads cs first more s) :
    s.start < cs.length := by
  obtain ⟨c, c', hwithin, hrun⟩ := h
  exact (hwithin.run? hrun).1

theorem reads_of_wordThenName? {words : List String} {found : String × Span × Cursor}
    (h : wordThenName? words cs = some found) : Reads cs isNameStart isWord found.2.1 := by
  obtain ⟨w, -, h⟩ := List.exists_of_findSome?_eq_some h
  obtain ⟨name, hname, rfl⟩ := Option.map_eq_some_iff.1 h
  obtain ⟨d, hd, hname⟩ := Option.bind_eq_some_iff.1 hname
  exact ⟨d, name.2, (within_skipPrefix cs).word? hd, hname⟩

theorem reads_of_constructor? {found : Span × Cursor} (h : constructor? cs = some found) :
    Reads cs Char.isUpper isWord found.1 :=
  ⟨_, found.2, within_skipPrefix cs, (Option.filter_eq_some_iff.1 h).1⟩

theorem reads_of_signature? {found : Span × Cursor} (h : signature? cs = some found) :
    Reads cs (fun c => c.isLower || c == '_') isWord found.1 :=
  ⟨_, found.2, (Cursor.within_ofText cs).skipBlanks, (Option.filter_eq_some_iff.1 h).1⟩

theorem reads_of_enumValue? {name : Span} (h : enumValue? cs = some name) :
    Reads cs Char.isUpper (fun c => c.isUpper || c.isDigit || c == '_') name := by
  obtain ⟨found, hfound, h⟩ := Option.bind_eq_some_iff.1 h
  dsimp only at h
  split at h
  · obtain rfl := Option.some.inj h
    exact ⟨_, found.2, (Cursor.within_ofText cs).skipBlanks, hfound⟩
  · simp at h

theorem reads_of_loop? {l : Loop} (h : loop? cs = some l) :
    Reads cs isNameStart isWord l.first ∧
      ∀ second, l.second = some second → Reads cs isNameStart isWord second := by
  obtain ⟨c, hc, h⟩ := Option.bind_eq_some_iff.1 h
  obtain ⟨first, hfirst, h⟩ := Option.bind_eq_some_iff.1 h
  obtain ⟨c', -, h⟩ := Option.bind_eq_some_iff.1 h
  obtain ⟨iterable, -, rfl⟩ := Option.map_eq_some_iff.1 h
  have hwithin := (Cursor.within_ofText cs).skipBlanks.word? hc
  refine ⟨⟨c, first.2, hwithin, hfirst⟩, ?_⟩
  intro second hsecond
  obtain ⟨name, hname, rfl⟩ := Option.map_eq_some_iff.1 hsecond
  obtain ⟨d, hd, hname⟩ := Option.bind_eq_some_iff.1 hname
  exact ⟨_, name.2, ((hwithin.run? hfirst).2.skipBlanks.literal? hd).skipBlanks, hname⟩

theorem reads_of_caught? {found : Span × Option Span} (h : caught? cs = some found) :
    Reads cs isNameStart isWord found.1 := by
  obtain ⟨c, hc, h⟩ := Option.bind_eq_some_iff.1 h
  obtain ⟨name, hname, h⟩ := Option.bind_eq_some_iff.1 h
  have hwithin := within_optionally ((Cursor.within_ofText cs).skipBlanks.literal? hc).skipBlanks
    "("
  have hreads : Reads cs isNameStart isWord name.1 := ⟨_, name.2, hwithin.skipBlanks, hname⟩
  split at h
  · obtain rfl := Option.some.inj h
    exact hreads
  · split at h
    · obtain rfl := Option.some.inj h
      exact hreads
    · simp at h

/-- The braces of an import lie inside the text. -/
theorem inner_of_import? {found : Span × Span} (h : import? cs = some found) :
    found.2.start ≤ found.2.stop ∧ found.2.stop ≤ cs.length := by
  obtain ⟨c, hc, h⟩ := Option.bind_eq_some_iff.1 h
  obtain ⟨path, hpath, h⟩ := Option.bind_eq_some_iff.1 h
  obtain ⟨d, hd, h⟩ := Option.bind_eq_some_iff.1 h
  have hpath := ((Cursor.within_ofText cs).skipBlanks.word? hc).run? hpath
  have hinner := (hpath.2.skipBlanks.literal? hd).skipWhile (· != '}')
  dsimp only at h
  split at h
  · simp at h
  · rename_i hend
    obtain rfl := Option.some.inj h
    have hlt := hinner.pos_lt (by simpa [Cursor.atEnd] using hend)
    refine ⟨?_, Nat.le_of_lt hlt⟩
    simp only [Cursor.skipWhile, Cursor.advance]
    omega

/-! ### Variables -/

theorem pos_lt_of_declarator? {w : Mutability} (h : declarator? c = some (w, c')) :
    c.pos < c'.pos := by
  obtain ⟨m, -, h⟩ := List.exists_of_findSome?_eq_some h
  obtain ⟨d, hd, h⟩ := Option.map_eq_some_iff.1 h
  obtain ⟨rfl, rfl⟩ := Prod.mk.inj h
  obtain ⟨e, he, hd⟩ := Option.bind_eq_some_iff.1 hd
  have hword : 0 < m.keyword.length := by cases m <;> decide
  have hblanks : e.pos ≤ d.pos := by
    unfold Cursor.blanks? at hd
    split at hd
    · obtain rfl := Option.some.inj hd
      exact Cursor.pos_le_skipBlanks e
    · simp at hd
  unfold Cursor.literal? at he
  split at he
  · obtain rfl := Option.some.inj he
    simp only [Cursor.advance] at hblanks
    omega
  · simp at he

theorem within_declarator? {w : Mutability} (h : c.Within cs) (hc : declarator? c = some (w, c')) :
    c'.Within cs := by
  obtain ⟨m, -, hc⟩ := List.exists_of_findSome?_eq_some hc
  obtain ⟨d, hd, hc⟩ := Option.map_eq_some_iff.1 hc
  obtain ⟨rfl, rfl⟩ := Prod.mk.inj hc
  exact h.word? hd

/-- Behind each word that declares a variable the cursor is on the text, and further on. -/
theorem of_mem_declarators (h : c.Within cs) {d : Mutability × Cursor} (hd : d ∈ declarators c) :
    d.2.Within cs ∧ c.pos < d.2.pos := by
  fun_induction declarators c with
  | case1 c hc => simp at hd
  | case2 c w c' hc hlt ih =>
      have hpos := pos_lt_of_declarator? hc
      have hwithin := within_declarator? h hc
      rcases List.mem_cons.1 hd with rfl | hd
      · exact ⟨hwithin, hpos⟩
      · have := ih hwithin hd
        exact ⟨this.1, by omega⟩
  | case3 c w c' hc hlt =>
      rw [List.mem_singleton.1 hd]
      exact ⟨within_declarator? h hc, pos_lt_of_declarator? hc⟩

/-- What a line that declares a variable is read from: the words that declare it, behind them the
name, and behind that the type and the initializer. -/
theorem exists_name_of_variableLine? {v : Variable} (h : variableLine? cs = some v) :
    ∃ c c' : Cursor, c.Within cs ∧ c.name? = some (v.name, c') ∧
      variableTail? c' = some (v.type, v.initializer) ∧
      v.written.start < v.written.stop ∧ v.written.stop = c.pos := by
  obtain ⟨n, -, h⟩ := List.exists_of_findSome?_eq_some h
  have hmem {d : Mutability × Cursor}
      (hd : d ∈ (declarators (skipPrefix (Cursor.ofText cs))).take (n + 1)) :=
    of_mem_declarators (within_skipPrefix cs) (List.mem_of_mem_take hd)
  generalize (declarators (skipPrefix (Cursor.ofText cs))).take (n + 1) = ds at h hmem
  unfold variableWith? at h
  split at h
  · simp at h
  · rename_i d more
    obtain ⟨name, hname, h⟩ := Option.bind_eq_some_iff.1 h
    obtain ⟨tail, htail, rfl⟩ := Option.map_eq_some_iff.1 h
    have hlast : more.getLastD d ∈ d :: more := by
      rw [List.getLastD_eq_getLast?]
      cases hmore : more.getLast? with
      | none => exact List.mem_cons_self
      | some e => exact List.mem_cons_of_mem _ (List.mem_of_getLast? hmore)
    obtain ⟨hwithin, hpos⟩ := hmem hlast
    exact ⟨_, name.2, hwithin, hname, htail, hpos, rfl⟩

/-- The name of a variable stands behind the words that declare it. -/
theorem reads_of_variableLine? {v : Variable} (h : variableLine? cs = some v) :
    Reads cs isNameStart isWord v.name ∧ v.written.start < v.written.stop ∧
      v.written.stop = v.name.start := by
  obtain ⟨c, c', hwithin, hname, -, hpos, hstop⟩ := exists_name_of_variableLine? h
  exact ⟨⟨c, c', hwithin, hname⟩, hpos, hstop.trans (Cursor.start_of_run? hname).1.symm⟩

/-- The name of a variable starts inside the text, behind the words that declare it. -/
theorem bounds_of_variableLine? {v : Variable} (h : variableLine? cs = some v) :
    v.name.start < cs.length ∧ v.written.start < v.written.stop ∧ v.written.stop ≤ cs.length := by
  obtain ⟨hreads, hwritten, hstop⟩ := reads_of_variableLine? h
  exact ⟨hreads.start_lt, hwritten, hstop ▸ Nat.le_of_lt hreads.start_lt⟩

end Shape

/-! ### Pieces -/

namespace Text

theorem length_strip_le (cs : List Char) : (strip cs).length ≤ cs.length := by
  have := leadingBlanks_add_length_strip_le cs
  omega

/-- The characters of pieces that are laid out with one separator behind each. -/
def layoutLength : List (List Char) → Nat
  | [] => 0
  | piece :: pieces => piece.length + 1 + layoutLength pieces

@[simp] theorem layoutLength_nil : layoutLength [] = 0 := rfl

@[simp] theorem layoutLength_cons (piece : List Char) (pieces : List (List Char)) :
    layoutLength (piece :: pieces) = piece.length + 1 + layoutLength pieces := rfl

theorem layoutLength_consPiece {c : Char} {pieces : List (List Char)} (h : pieces ≠ []) :
    layoutLength (consPiece c pieces) = layoutLength pieces + 1 := by
  cases pieces with
  | nil => exact absurd rfl h
  | cons piece pieces =>
      simp only [consPiece, layoutLength_cons, List.length_cons]
      omega

theorem length_lt_layoutLength {piece : List Char} {pieces : List (List Char)}
    (h : piece ∈ pieces) : piece.length < layoutLength pieces := by
  induction pieces with
  | nil => simp at h
  | cons first pieces ih =>
      rw [layoutLength_cons]
      rcases List.mem_cons.1 h with rfl | h
      · omega
      · have := ih h
        omega

/-- The separators are longer than one character here, so the text may be longer. -/
theorem layoutLength_splitOnText_le (c : Char) (tail cs : List Char) :
    layoutLength (splitOnText c tail cs) ≤ cs.length + 1 ∧ splitOnText c tail cs ≠ [] := by
  fun_induction splitOnText c tail cs with
  | case1 => simp
  | case2 d ds h ih =>
      rw [List.length_drop] at ih
      simp only [layoutLength_cons, List.length_nil, List.length_cons, ne_eq, reduceCtorEq,
        not_false_eq_true, and_true]
      omega
  | case3 d ds h ih =>
      rw [layoutLength_consPiece ih.2, List.length_cons]
      exact ⟨by omega, consPiece_ne_nil _ _⟩

theorem length_le_of_mem_splitOnText {c : Char} {tail cs piece : List Char}
    (h : piece ∈ splitOnText c tail cs) : piece.length ≤ cs.length := by
  have := length_lt_layoutLength h
  have := (layoutLength_splitOnText_le c tail cs).1
  omega

end Text

theorem cutFrom_ne_nil (isSeparator : Char → Bool) (s : Nesting) (cs : List Char) :
    cutFrom isSeparator s cs ≠ [] := by
  fun_cases cutFrom isSeparator s cs <;> simp [consPiece_ne_nil]

/-- The pieces of a text and the separators between them are the text. -/
theorem layoutLength_cutFrom (isSeparator : Char → Bool) (s : Nesting) (cs : List Char) :
    layoutLength (cutFrom isSeparator s cs) = cs.length + 1 := by
  fun_induction cutFrom isSeparator s cs with
  | case1 => rfl
  | case2 => rfl
  | case3 s q hquote d ds ih =>
      rw [layoutLength_consPiece (consPiece_ne_nil _ _),
        layoutLength_consPiece (cutFrom_ne_nil _ _ _), ih]
      rfl
  | case4 s c cs q hquote hslash quote ih =>
      rw [layoutLength_consPiece (cutFrom_ne_nil _ _ _), ih]
      rfl
  | case5 s c cs hquote hcut ih =>
      rw [layoutLength_cons, ih, List.length_nil, List.length_cons]
      omega
  | case6 s c cs hquote hcut ih =>
      rw [layoutLength_consPiece (cutFrom_ne_nil _ _ _), ih]
      rfl

theorem stop_of_mem_placePieces {offset : Nat} {pieces : List (List Char)} {p : Nat × List Char}
    (h : p ∈ placePieces offset pieces) :
    p.1 + p.2.length + 1 ≤ offset + layoutLength pieces := by
  induction pieces generalizing offset with
  | nil => simp [placePieces] at h
  | cons piece pieces ih =>
      rw [layoutLength_cons]
      rcases List.mem_cons.1 h with rfl | h
      · dsimp only
        omega
      · have := ih h
        omega

/-- A piece stands inside the text. -/
theorem stop_of_mem_splitTopLevel {isSeparator : Char → Bool} {cs : List Char}
    {p : Nat × List Char} (h : p ∈ splitTopLevel isSeparator cs) :
    p.1 + p.2.length ≤ cs.length := by
  have := stop_of_mem_placePieces h
  rw [layoutLength_cutFrom] at this
  omega

/-! ### Parameters -/

namespace Parameter

theorem length_le_of_name {cs rest : List Char} {name : String}
    (h : Parser.name cs = some (name, rest)) : name.length ≤ cs.length := by
  cases cs with
  | nil => simp [Parser.name] at h
  | cons c cs =>
      rw [Parser.name] at h
      split at h
      · obtain ⟨rfl, -⟩ := Prod.mk.inj (Option.some.inj h)
        have := (List.takeWhile_sublist (l := cs) Parser.isNameRest).length_le
        rw [String.length_ofList, List.length_cons, List.length_cons]
        omega
      · simp at h

/-- The name of a parameter that follows the grammar stands in its text, behind the dots. -/
theorem length_of_parseGrammar? {cs : List Char} {p : Parameter} (h : parseGrammar? cs = some p) :
    p.name.length + (if p.variadic then 3 else 0) ≤ cs.length := by
  unfold parseGrammar? at h
  obtain ⟨name, hname, h⟩ := Option.bind_eq_some_iff.1 h
  have hlength := length_le_of_name hname
  dsimp only at h
  split at h
  · obtain rfl := Option.some.inj h
    dsimp only
    split at hlength
    · simpa using hlength
    · simpa using hlength
  · simp at h

theorem length_recoverName_le (cs : List Char) :
    (recoverName cs).length ≤ (cs.dropWhile (· == '.')).length := by
  have hend := length_dropEndWhile_le (· == '?')
    (strip ((cs.dropWhile (· == '.')).takeWhile fun c => c != ':' && c != '='))
  have hstrip := length_strip_le ((cs.dropWhile (· == '.')).takeWhile fun c => c != ':' && c != '=')
  have htake := (List.takeWhile_sublist (l := cs.dropWhile (· == '.'))
    fun c => c != ':' && c != '=').length_le
  rw [recoverName]
  omega

/-- A recovered name stands behind the dots at the start of the text. -/
theorem length_of_recover? {cs : List Char} {p : Parameter} (h : recover? cs = some p) :
    p.name.length + (if p.variadic then 3 else 0) ≤ cs.length := by
  have hlength := length_recoverName_le cs
  unfold recover? at h
  dsimp only at h
  split at h
  · obtain rfl := Option.some.inj h
    rw [String.length_ofList]
    dsimp only
    split
    · rename_i hdots
      obtain ⟨rest, rfl⟩ := List.isPrefixOf_iff_prefix.1 hdots
      have hdrop := (List.dropWhile_sublist (l := rest) (· == '.')).length_le
      simp only [List.cons_append, List.nil_append, List.dropWhile_cons, beq_self_eq_true,
        if_true] at hlength
      simp only [List.cons_append, List.nil_append, List.length_cons]
      omega
    · have hdrop := (List.dropWhile_sublist (l := cs) (· == '.')).length_le
      omega
  · simp at h

/-- The name of a parameter ends inside its piece. -/
theorem stop_of_parseAt? {column : Nat} {piece : List Char} {p : Parameter}
    (h : parseAt? column piece = some p) :
    p.column.getD 0 + p.name.length ≤ column + piece.length := by
  obtain ⟨q, hq, rfl⟩ := Option.map_eq_some_iff.1 h
  have hblanks := leadingBlanks_add_length_strip_le piece
  have hname : q.name.length + (if q.variadic then 3 else 0) ≤ (strip piece).length := by
    rcases Option.or_eq_some_iff.1 hq with hq | ⟨-, hq⟩
    · exact length_of_parseGrammar? hq
    · exact length_of_recover? hq
  dsimp only [Option.getD_some]
  omega

/-- The names of a list of parameters end inside its text. -/
theorem stop_of_mem_parseList {cs : List Char} {column : Nat} {p : Parameter}
    (h : p ∈ parseList cs column) : p.column.getD 0 + p.name.length ≤ column + cs.length := by
  obtain ⟨piece, hpiece, hp⟩ := List.mem_filterMap.1 h
  have := stop_of_parseAt? hp
  have := stop_of_mem_splitTopLevel hpiece
  omega

end Parameter

/-! ### Declarations -/

namespace Collect

/-- Parameters end inside the line, also if their parenthesis is never closed. -/
theorem stop_of_mem_paramsAfter {line : Line} {column : Nat} {p : Parameter}
    (h : p ∈ (paramsAfter line column).1) :
    p.column.getD 0 + p.name.length ≤ line.text.length := by
  unfold paramsAfter at h
  dsimp only at h
  split at h
  · simp at h
  · rename_i inside hinside
    have hstart : column + ((line.masked.drop column).takeWhile (· != '(')).length + 1 ≤
        line.text.length := by
      have := congrArg List.length hinside
      rw [List.length_drop, List.length_drop, List.length_cons, Line.length_masked] at this
      omega
    split at h
    · have := Parameter.stop_of_mem_parseList h
      rw [List.length_drop, Line.length_code] at this
      omega
    · have := Parameter.stop_of_mem_parseList h
      rw [List.length_take, List.length_drop, Line.length_code] at this
      omega

theorem length_spanText_le (s : Span) (cs : List Char) :
    (spanText s cs).length ≤ cs.length - s.start := by
  rw [spanText, String.length_ofList, Span.slice, List.length_take, List.length_drop]
  omega

/-- Everything that a line says about a declaration stands on the line: its name and its
parameters. -/
def Stands (line : Line) (d : Declaration) : Prop :=
  line.Covers d.range ∧ ∀ p ∈ d.params,
    line.Covers ⟨d.line, (p.column.getD 0 : Nat), (p.column.getD 0 + p.name.length : Nat)⟩

variable {tree : ScopeTree} {line : Line} {d : Declaration}

theorem stands_of_name {name : Span} (hname : name.start < line.masked.length)
    (hline : d.line = line.index) (hcolumn : d.column = name.start)
    (htext : d.name = spanText name line.masked)
    (hparams : ∀ p ∈ d.params, p ∈ (paramsAfter line name.stop).1) : Stands line d := by
  constructor
  · have hlength := length_spanText_le name line.masked
    rw [Line.length_masked] at hname hlength
    rw [Declaration.range, hline]
    refine Line.covers_mk (Nat.le_add_right _ _) ?_
    rw [Declaration.stopColumn, hcolumn, htext]
    omega
  · intro p hp
    rw [hline]
    exact Line.covers_mk (Nat.le_add_right _ _) (stop_of_mem_paramsAfter (hparams p hp))

theorem stands_of_mem_parameterDecls {column : Nat} {params : List Parameter}
    {form : DeclarationForm} {body : Nat} {owner : Option String}
    (hparams : ∀ p ∈ params, p ∈ (paramsAfter line column).1)
    (h : d ∈ parameterDecls line params form body owner) : Stands line d := by
  obtain ⟨p, hp, rfl⟩ := List.mem_map.1 h
  refine ⟨?_, by simp⟩
  exact Line.covers_mk (Nat.le_add_right _ _) (stop_of_mem_paramsAfter (hparams p hp))

theorem stands_of_mem_classDecls {word : String} {name : Span}
    (hname : name.start < line.masked.length) (h : d ∈ classDecls tree line word name) :
    Stands line d := by
  have hparams : ∀ p ∈ if classForm word = .recordType then (paramsAfter line name.stop).1 else [],
      p ∈ (paramsAfter line name.stop).1 := by
    intro p hp
    split at hp
    · exact hp
    · simp at hp
  unfold classDecls at h
  dsimp only at h
  split at h
  · obtain rfl := List.mem_singleton.1 h
    exact stands_of_name hname rfl rfl rfl hparams
  · rcases List.mem_cons.1 h with rfl | h
    · exact stands_of_name hname rfl rfl rfl hparams
    · exact stands_of_mem_parameterDecls hparams h

theorem stands_of_mem_functionDecls {form : DeclarationForm} {name : Span}
    (hname : name.start < line.masked.length) (h : d ∈ functionDecls tree line form name) :
    Stands line d := by
  unfold functionDecls at h
  dsimp only at h
  split at h
  · obtain rfl := List.mem_singleton.1 h
    exact stands_of_name hname rfl rfl rfl fun p hp => hp
  · rcases List.mem_cons.1 h with rfl | h
    · exact stands_of_name hname rfl rfl rfl fun p hp => hp
    · exact stands_of_mem_parameterDecls (fun p hp => hp) h

theorem stands_variableDecl {v : Shape.Variable} (hname : v.name.start < line.masked.length) :
    Stands line (variableDecl tree line v) :=
  stands_of_name hname rfl rfl rfl (by simp [variableDecl])

theorem stands_of_mem_loopDecls {l : Shape.Loop} (hl : Shape.loop? line.masked = some l)
    (h : d ∈ loopDecls tree line l) : Stands line d := by
  obtain ⟨hfirst, hsecond⟩ := Shape.reads_of_loop? hl
  unfold loopDecls at h
  split at h
  · simp at h
  · rcases List.mem_cons.1 h with rfl | h
    · exact stands_of_name hfirst.start_lt rfl rfl rfl (by simp)
    · obtain ⟨second, hs, rfl⟩ := Option.map_eq_some_iff.1 (Option.mem_toList.1 h)
      exact stands_of_name (hsecond second hs).start_lt rfl rfl rfl (by simp)

theorem stands_of_mem_caughtDecls {name : Span} {type : Option Span}
    (hname : name.start < line.masked.length) (h : d ∈ caughtDecls tree line name type) :
    Stands line d := by
  unfold caughtDecls at h
  dsimp only at h
  split at h
  · simp at h
  · obtain rfl := List.mem_singleton.1 h
    exact stands_of_name hname rfl rfl rfl (by simp)

theorem stands_of_mem_memberDecls (h : d ∈ memberDecls tree line) : Stands line d := by
  unfold memberDecls at h
  split at h
  · simp at h
  · split at h
    · simp at h
    · split at h
      · obtain ⟨name, hname, rfl⟩ := List.mem_map.1 h
        have hname := (Shape.reads_of_enumValue? (Option.mem_toList.1 hname)).start_lt
        exact stands_of_name hname rfl rfl rfl (by simp)
      · split at h
        · obtain ⟨name, hname, rfl⟩ := List.mem_map.1 h
          have hname := (Shape.reads_of_signature? (Option.mem_toList.1 hname)).start_lt
          exact stands_of_name hname rfl rfl rfl fun p hp => hp
        · simp at h

/-- Imported names are no longer than the pieces that name them. -/
theorem covers_of_mem_importStatement {path inner : Span} {s : ImportedSymbol}
    (hinner : inner.start ≤ inner.stop ∧ inner.stop ≤ line.masked.length)
    (h : s ∈ (importStatement line path inner).symbols) :
    line.Covers ⟨s.line, s.column, (s.column + s.name.length : Nat)⟩ := by
  obtain ⟨piece, hpiece, h⟩ := List.mem_filterMap.1 h
  dsimp only at h
  split at h
  · obtain rfl := Option.some.inj h
    have hplace := stop_of_mem_splitTopLevel hpiece
    have hblanks := leadingBlanks_add_length_strip_le piece.2
    have hname : (strip ((splitOnText ' ' "as ".toList (strip piece.2)).getLastD [])).length ≤
        (strip piece.2).length := by
      refine Nat.le_trans (length_strip_le _) ?_
      rw [List.getLastD_eq_getLast?]
      cases hlast : (splitOnText ' ' "as ".toList (strip piece.2)).getLast? with
      | none => exact Nat.zero_le _
      | some part => exact length_le_of_mem_splitOnText (List.mem_of_getLast? hlast)
    rw [Span.slice, List.length_take, List.length_drop, Line.length_code] at hplace
    rw [Line.length_masked] at hinner
    refine Line.covers_mk (Nat.le_add_right _ _) ?_
    rw [String.length_ofList]
    dsimp only
    omega
  · simp at h

end Collect

/-! ### The table -/

/-- Everything in the table stands on a line of the document. -/
structure DeclarationTable.Covered (doc : Document) (table : DeclarationTable) : Prop where
  declarations : ∀ d ∈ table.declarations, ∃ l ∈ doc.lines, Collect.Stands l d
  imports : ∀ i ∈ table.imports, ∀ s ∈ i.symbols,
    ∃ l ∈ doc.lines, l.Covers ⟨s.line, s.column, (s.column + s.name.length : Nat)⟩
  stacked : ∀ s ∈ table.stacked, ∃ l ∈ doc.lines, l.Covers s.range

namespace Collect

open DeclarationTable

variable {doc : Document} {tree : ScopeTree} {line : Line} {table : DeclarationTable}

theorem covered_add (hline : line ∈ doc.lines) (h : Covered doc table) {ds : List Declaration}
    (hds : ∀ d ∈ ds, Stands line d) : Covered doc (add table ds) := by
  refine ⟨?_, h.imports, h.stacked⟩
  intro d hd
  rcases List.mem_append.1 hd with hd | hd
  · exact h.declarations d hd
  · exact ⟨line, hline, hds d hd⟩

theorem covered_addVariable (hline : line ∈ doc.lines) (h : Covered doc table)
    {v : Shape.Variable} (hv : Shape.variableLine? line.masked = some v) :
    Covered doc (addVariable tree line table v) := by
  obtain ⟨hname, hwritten, hstop⟩ := Shape.bounds_of_variableLine? hv
  unfold addVariable
  split
  · refine covered_add hline h ?_
    intro d hd
    rw [List.mem_singleton.1 hd]
    exact stands_variableDecl hname
  · refine ⟨h.declarations, h.imports, ?_⟩
    intro s hs
    rcases List.mem_append.1 hs with hs | hs
    · exact h.stacked s hs
    · rw [List.mem_singleton.1 hs]
      rw [Line.length_masked] at hstop
      exact ⟨line, hline, Line.covers_mk (Nat.le_pred_of_lt hwritten)
        (Nat.le_trans (Nat.pred_le _) hstop)⟩

theorem covered_addUnworded (hline : line ∈ doc.lines) (h : Covered doc table) :
    Covered doc (addUnworded tree line table) := by
  unfold addUnworded
  split
  · rename_i l hl
    exact covered_add hline h fun d hd => stands_of_mem_loopDecls hl hd
  · split
    · rename_i name type hcaught
      exact covered_add hline h fun d hd =>
        stands_of_mem_caughtDecls (Shape.reads_of_caught? hcaught).start_lt hd
    · split
      · rename_i name _ hconstructor
        split
        · exact covered_add hline h fun d hd =>
            stands_of_mem_functionDecls (Shape.reads_of_constructor? hconstructor).start_lt hd
        · exact covered_add hline h fun d hd => stands_of_mem_memberDecls hd
      · exact covered_add hline h fun d hd => stands_of_mem_memberDecls hd

/-- A line adds what stands on it. -/
theorem covered_addLine (hline : line ∈ doc.lines) (h : Covered doc table) :
    Covered doc (addLine tree table line) := by
  unfold addLine
  split
  · exact h
  · split
    · rename_i path inner himport
      refine ⟨h.declarations, ?_, h.stacked⟩
      intro i hi s hs
      rcases List.mem_append.1 hi with hi | hi
      · exact h.imports i hi s hs
      · rw [List.mem_singleton.1 hi] at hs
        exact ⟨line, hline,
          covers_of_mem_importStatement (Shape.inner_of_import? himport) hs⟩
    · split
      · rename_i word name _ hclass
        exact covered_add hline h fun d hd =>
          stands_of_mem_classDecls (Shape.reads_of_wordThenName? hclass).start_lt hd
      · split
        · rename_i name _ hfunction
          obtain ⟨found, hfound, heq⟩ := Option.map_eq_some_iff.1 hfunction
          have hname := (Shape.reads_of_wordThenName? hfound).start_lt
          rw [heq] at hname
          exact covered_add hline h fun d hd => stands_of_mem_functionDecls hname hd
        · split
          · rename_i v hv
            exact covered_addVariable hline h hv
          · exact covered_addUnworded hline h

end Collect

/-- Everything that a document declares stands on one of its lines. -/
theorem DeclarationTable.covered_collect (doc : Document) (tree : ScopeTree) :
    Covered doc (collect doc tree) := by
  have hfold (lines : List Line) (hlines : ∀ l ∈ lines, l ∈ doc.lines) (table : DeclarationTable)
      (h : Covered doc table) : Covered doc (lines.foldl (Collect.addLine tree) table) := by
    induction lines generalizing table with
    | nil => exact h
    | cons line lines ih =>
        rw [List.forall_mem_cons] at hlines
        exact ih hlines.2 _ (Collect.covered_addLine hlines.1 h)
  exact hfold doc.lines (fun _ hl => hl) {} ⟨by simp, by simp, by simp⟩

end Polyloft
