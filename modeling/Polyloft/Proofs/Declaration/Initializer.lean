import Polyloft.Proofs.Declaration.Header
import Polyloft.Proofs.Inference.Placed
import Polyloft.Proofs.Inference.Relation
import Polyloft.Proofs.Token.Trimmed

/-!
# Polyloft.Proofs.Declaration.Initializer

Initializers are read twice: the text behind the equals sign of a declaration is cut out of the line
and kept, and lexed again when its type is asked for. Nothing changes on the way. If the first
equals sign behind the name is a token of its own, the kept text has the tokens that stand behind
this token on the line, but for their places, and so it has the type that these tokens have.

## Proof shape

The masked text says where the initializer starts (`Shape.initializes_of_variableLine?`), and only a
line that is read as a variable declares one (`Collect.exists_variableLine?`). What is cut out of
the code there is the code behind the equals sign without the blanks at either end
(`Collect.initializer_eq`), and by `Polyloft.Proofs.Token.Trimmed` that is lexed as on the line.
-/

namespace Polyloft

open Polyloft.Text

/-! ### Where an initializer starts -/

namespace Shape

variable {c : Cursor} {cs : List Char} {s : Span}

/-- Behind the cursor comes an equals sign, and the span is what stands behind the first one,
without the blanks at either end. -/
def Initializes (c : Cursor) (s : Span) : Prop :=
  ∃ gap rest, c.rest = gap ++ '=' :: rest ∧ '=' ∉ gap ∧
    s = trimmedSpan ⟨c.pos + gap.length + 1, rest⟩ rest.length

/-- What is read before the equals sign may be read first. -/
theorem Initializes.of_skipWhile {p : Char → Bool} (h : Initializes (c.skipWhile p) s)
    (hp : p '=' = false) : Initializes c s := by
  obtain ⟨gap, rest, hrest, hgap, rfl⟩ := h
  refine ⟨c.rest.takeWhile p ++ gap, rest, ?_, ?_, ?_⟩
  · rw [Cursor.rest_skipWhile] at hrest
    rw [List.append_assoc, ← hrest, List.takeWhile_append_dropWhile]
  · rw [List.mem_append, not_or]
    refine ⟨fun hmem => ?_, hgap⟩
    rw [List.mem_takeWhile_imp hmem] at hp
    cases hp
  · rw [List.length_append, ← Nat.add_assoc]
    rfl

/-- One character more may be read first. -/
theorem Initializes.of_advance_one {d : Char} {ds : List Char}
    (h : Initializes (c.advance 1) s) (hrest : c.rest = d :: ds) (hd : d ≠ '=') :
    Initializes c s := by
  obtain ⟨gap, rest, hbehind, hgap, rfl⟩ := h
  rw [Cursor.advance, hrest, List.drop_succ_cons, List.drop_zero] at hbehind
  refine ⟨d :: gap, rest, hrest.trans (congrArg (d :: ·) hbehind), by simp [hd.symm, hgap], ?_⟩
  rw [List.length_cons, Cursor.advance, Nat.add_assoc c.pos 1, Nat.add_comm 1]

theorem initializes_of_initializer? (h : initializer? c = some (some s)) : Initializes c s := by
  refine Initializes.of_skipWhile (p := isBlank) ?_ (by decide)
  unfold initializer? at h
  dsimp only at h
  rw [← Cursor.skipBlanks]
  generalize c.skipBlanks = c at h
  split at h
  · rename_i c' hsign
    obtain ⟨hliteral, -⟩ := Option.filter_eq_some_iff.1 hsign
    unfold Cursor.literal? at hliteral
    split at hliteral
    · rename_i hprefix
      obtain ⟨rest, hrest⟩ := List.isPrefixOf_iff_prefix.1 hprefix
      have hrest : c.rest = '=' :: rest := hrest.symm
      obtain rfl := Option.some.inj hliteral
      obtain rfl := Option.some.inj (Option.some.inj h)
      refine ⟨[], rest, hrest, by simp, ?_⟩
      rw [Cursor.advance, hrest]
      rfl
    · cases hliteral
  · split at h <;> cases h

theorem initializes_of_variableTail? {type : Option Span}
    (h : variableTail? c = some (type, some s)) : Initializes c s := by
  unfold variableTail? at h
  split at h
  · obtain ⟨init, hinit, heq⟩ := Option.map_eq_some_iff.1 h
    obtain ⟨-, rfl⟩ := Prod.mk.inj heq
    exact initializes_of_initializer? hinit
  · rename_i c' hcolon
    dsimp only at h
    split at h
    · cases h
    · obtain ⟨init, hinit, heq⟩ := Option.map_eq_some_iff.1 h
      obtain ⟨-, rfl⟩ := Prod.mk.inj heq
      have htype : Initializes (c'.skipWhile (· != '=')) s := initializes_of_initializer? hinit
      have hbehind : Initializes c' s := htype.of_skipWhile rfl
      refine Initializes.of_skipWhile (p := isBlank) ?_ (by decide)
      rw [← Cursor.skipBlanks]
      generalize c.skipBlanks = c at hcolon
      unfold Cursor.literal? at hcolon
      split at hcolon
      · rename_i hprefix
        obtain ⟨rest, hrest⟩ := List.isPrefixOf_iff_prefix.1 hprefix
        obtain rfl := Option.some.inj hcolon
        exact hbehind.of_advance_one hrest.symm (by decide)
      · cases hcolon

/-- No equals sign is part of a name. -/
theorem Initializes.of_name? {c' : Cursor} {name : Span} (h : Initializes c' s)
    (hname : c.name? = some (name, c')) : Initializes c s := by
  unfold Cursor.name? Cursor.run? at hname
  split at hname
  · cases hname
  · rename_i d ds hrest
    split at hname
    · rename_i hstart
      obtain ⟨-, rfl⟩ := Prod.mk.inj (Option.some.inj hname)
      have hne : d ≠ '=' := by
        rintro rfl
        exact absurd hstart (by decide)
      have hmore : Initializes ((c.advance 1).skipWhile isWord) s := by
        simpa [Cursor.skipWhile, Cursor.advance, hrest, Nat.add_assoc, Nat.add_comm 1] using h
      exact (hmore.of_skipWhile (by decide)).of_advance_one hrest hne
    · cases hname

/-- The initializer of a variable stands behind the first equals sign behind the name. -/
theorem initializes_of_variableLine? {v : Variable} (h : variableLine? cs = some v)
    (hs : v.initializer = some s) : Initializes ⟨v.name.start, cs.drop v.name.start⟩ s := by
  obtain ⟨c, c', hwithin, hname, htail, -⟩ := exists_name_of_variableLine? h
  rw [hs] at htail
  have hstart : (⟨v.name.start, cs.drop v.name.start⟩ : Cursor) = c := by
    rw [(Cursor.start_of_run? hname).1, hwithin]
  rw [hstart]
  exact (initializes_of_variableTail? htail).of_name? hname

end Shape

/-! ### Which lines declare a variable -/

namespace Collect

variable {tree : ScopeTree} {line : Line} {d : Declaration} {m : Mutability}

theorem form_ne_variable_of_mem_classDecls {word : String} {name : Span}
    (h : d ∈ classDecls tree line word name) : d.form ≠ .variable m := by
  rcases mem_classDecls h with ⟨-, hkind, -⟩ | ⟨_, _, _, -, -, h⟩
  · intro hform
    rw [Declaration.kind, hform] at hkind
    cases hkind
  · rw [(fields_of_mem_parameterDecls h).1]
    simp

theorem form_ne_variable_of_mem_functionDecls {form : DeclarationForm}
    (hfunction : form.kind = .function) {name : Span}
    (h : d ∈ functionDecls tree line form name) : d.form ≠ .variable m := by
  rcases mem_functionDecls h with ⟨-, rfl, -⟩ | ⟨_, h⟩
  · intro hform
    rw [hform] at hfunction
    cases hfunction
  · rw [(fields_of_mem_parameterDecls h).1]
    simp

theorem form_ne_variable_of_mem_caughtDecls {name : Span} {type : Option Span}
    (h : d ∈ caughtDecls tree line name type) : d.form ≠ .variable m := by
  unfold caughtDecls at h
  dsimp only at h
  split at h
  · cases h
  · rw [List.mem_singleton.1 h]
    simp

theorem form_ne_variable_of_mem_memberDecls (h : d ∈ memberDecls tree line) :
    d.form ≠ .variable m := by
  unfold memberDecls at h
  split at h
  · cases h
  · split at h
    · cases h
    · split at h
      · obtain ⟨name, -, rfl⟩ := List.mem_map.1 h
        simp
      · split at h
        · obtain ⟨name, -, rfl⟩ := List.mem_map.1 h
          simp
        · cases h

theorem form_ne_variable_of_mem_addUnworded
    (h : d ∈ (addUnworded tree line {}).declarations) : d.form ≠ .variable m := by
  unfold addUnworded at h
  split at h
  · rw [(mem_loopDecls h).1]
    simp
  · split at h
    · exact form_ne_variable_of_mem_caughtDecls h
    · split at h
      · split at h
        · exact form_ne_variable_of_mem_functionDecls rfl h
        · exact form_ne_variable_of_mem_memberDecls h
      · exact form_ne_variable_of_mem_memberDecls h

/-- Only a line that is read as a variable declares one. -/
theorem exists_variableLine? (h : d ∈ lineDecls tree line) (hform : d.form = .variable m) :
    ∃ v, Shape.variableLine? line.masked = some v ∧ d = variableDecl tree line v := by
  unfold lineDecls addLine at h
  split at h
  · cases h
  · split at h
    · cases h
    · split at h
      · exact absurd hform (form_ne_variable_of_mem_classDecls h)
      · split at h
        · exact absurd hform (form_ne_variable_of_mem_functionDecls rfl h)
        · split at h
          · rename_i v hv
            refine ⟨v, hv, ?_⟩
            unfold addVariable at h
            split at h
            · exact List.mem_singleton.1 h
            · cases h
          · exact absurd hform (form_ne_variable_of_mem_addUnworded h)

end Collect

/-! ### What is cut out -/

theorem Text.strip_strip (cs : List Char) : strip (strip cs) = strip cs := by
  refine strip_of_ends (fun c hc => isBlank_of_head?_strip hc) fun c hc => ?_
  rw [strip, getLast?_stripEnd] at hc
  simpa using (List.mem_filter.1 (List.mem_of_getLast? hc)).2

namespace Line

variable {l : Line} {before after : List Token} {sign : Token}

/-- The column of the first equals sign at or behind a column, outside comments and literals. -/
def equalsBehind (l : Line) (column : Nat) : Nat :=
  column + ((l.masked.drop column).takeWhile (· != '=')).length

/-- What the masked text shows behind a token, trimmed, is the code behind the token, trimmed. -/
theorem trimmedText_behind (hlexed : l.Lexed) (htokens : l.codeTokens = before ++ sign :: after)
    (hwhole : ∀ t ∈ after, t.IsWhole) :
    Collect.trimmedText
        (Shape.trimmedSpan ⟨sign.stop, l.masked.drop sign.stop⟩ (l.masked.drop sign.stop).length)
        l.code =
      String.ofList (strip (l.code.drop sign.stop)) := by
  have hveils := (veils_behind hlexed htokens hwhole).strip_eq
  rw [List.drop_drop] at hveils
  rw [Collect.trimmedText, Shape.trimmedSpan, Span.slice, List.take_length]
  dsimp only
  rw [Nat.add_sub_cancel_left, hveils, strip_strip]

/-- The code behind a token, trimmed, is spelled as the tokens behind it. -/
theorem spellings_behind (hlexed : l.Lexed) (hascii : ∀ c ∈ l.text, isAsciiText c = true)
    (htokens : l.codeTokens = before ++ sign :: after) (hwhole : ∀ t ∈ after, t.IsWhole) :
    spellings (strip (l.code.drop sign.stop)) = after.map Token.spelling := by
  have hcode : (lexFrom l.index 0 l.code).1 = before ++ sign :: after := by
    rw [hlexed.code, htokens]
  have hafter := (lexFrom_of_split hcode).2
  rw [Nat.sub_zero] at hafter
  rw [← hafter] at hwhole
  have hchars : ∀ c ∈ l.code.drop sign.stop, isAsciiText c = true := by
    intro c hc
    rcases l.blanks_code.eq_or_mem (List.mem_of_mem_drop hc) with rfl | hc
    · rfl
    · exact hascii c hc
  rw [spellings_strip hchars hwhole, ← map_spelling_lexFrom l.index sign.stop, hafter]

/-- The span of an initializer starts behind the first equals sign. -/
theorem eq_of_initializes {column : Nat} {s : Span}
    (h : Shape.Initializes ⟨column, l.masked.drop column⟩ s) :
    s = Shape.trimmedSpan ⟨l.equalsBehind column + 1, l.masked.drop (l.equalsBehind column + 1)⟩
      (l.masked.drop (l.equalsBehind column + 1)).length := by
  obtain ⟨gap, rest, hrest, hgap, rfl⟩ := h
  dsimp only at hrest
  have htake : (l.masked.drop column).takeWhile (· != '=') = gap := by
    rw [hrest, List.takeWhile_append_of_pos]
    · simp
    · intro c hc
      rw [bne_iff_ne]
      intro heq
      exact hgap (heq ▸ hc)
  have hdrop := congrArg (List.drop (gap.length + 1)) hrest
  rw [List.drop_drop, ← Nat.add_assoc] at hdrop
  rw [equalsBehind, htake, hdrop]
  simp

end Line

/-- The initializer that is kept is the code behind the equals sign without the blanks at either
end. -/
theorem Collect.initializer_eq {tree : ScopeTree} {l : Line} {d : Declaration} {m : Mutability}
    {init : String} {before after : List Token} {sign : Token} (hlexed : l.Lexed)
    (hd : d ∈ lineDecls tree l) (hform : d.form = .variable m) (hinit : d.initializer = some init)
    (htokens : l.codeTokens = before ++ sign :: after) (hwhole : ∀ t ∈ after, t.IsWhole)
    (htext : sign.text = "=") (hcolumn : sign.column = l.equalsBehind d.column) :
    init = String.ofList (strip (l.code.drop sign.stop)) ∧ init ≠ "" := by
  obtain ⟨v, hv, rfl⟩ := exists_variableLine? hd hform
  obtain ⟨hkept, hne⟩ := Option.filter_eq_some_iff.1 hinit
  obtain ⟨s, hs, rfl⟩ := Option.map_eq_some_iff.1 hkept
  have hstop : sign.stop = l.equalsBehind v.name.start + 1 := by
    rw [Token.stop, hcolumn, htext]
    rfl
  have hspan := Line.eq_of_initializes (Shape.initializes_of_variableLine? hv hs)
  rw [← hstop] at hspan
  exact ⟨by rw [hspan, Line.trimmedText_behind hlexed htokens hwhole], by simpa using hne⟩

/-! ### Types -/

/-- A token that is spelled like this and stands at the start of a text. -/
def Spelling.bare (w : Spelling) : Token :=
  ⟨w.kind, w.text, 0, 0, true⟩

/-- The type of an expression is found from its spelling. -/
theorem Expression.inferTokens_of_spelling {m : Type → Type} [Monad m] [LawfulMonad m]
    [MonadLiftT (Except Fault) m] (a : Analysis) (f : Declaration → m Ty)
    {tokens tokens' : List Token} (h : tokens.map Token.spelling = tokens'.map Token.spelling)
    (line : Int) :
    inferTokens a f tokens line = inferTokens a f tokens' line := by
  have hplace : Token.PlaceOnly fun t => t.spelling.bare := ⟨fun _ => rfl, fun _ => rfl⟩
  have hbare (tokens : List Token) := inferTokens_placed (SameAnswers.refl a f line) hplace tokens
  have hmap (tokens : List Token) :
      (tokens.map fun t => t.spelling.bare) = (tokens.map Token.spelling).map Spelling.bare := by
    rw [List.map_map]
    rfl
  rw [← hbare tokens, ← hbare tokens', hmap, hmap, h]

namespace Analysis

/-- The kept initializer of a declaration stands for tokens on its line. -/
structure KeepsInitializer (a : Analysis) (d : Declaration) (init : String)
    (after : List Token) : Prop where
  /-- Lexed again, the kept text has these tokens, but for their places. -/
  spelled : ∀ line, (codeTokens (lexLine init.toList line false).1).map Token.spelling =
    after.map Token.spelling
  /-- The type of the kept text is that of the same tokens wherever they stand, from every state of
  the inference. -/
  typed : ∀ tokens : List Token, tokens.map Token.spelling = after.map Token.spelling →
    ∀ line, a.infer init.toList line = a.inferTokens tokens line
  /-- The declaration has this type, unless another type is written. -/
  declared : ∀ typeOf : Declaration → Infer Ty,
    a.initialType typeOf d = Expression.inferTokens a typeOf after d.line

/-- In every text, the initializer that is kept of a declaration on a line of printable ASCII
characters and tabs, without open literals, is lexed and typed as what stands on the line behind the
equals sign, if this sign is a token. -/
theorem initializers_are_kept (text : List Char) (uri : Option String) (catalog : Catalog) :
    let a := ofText text uri catalog
    ∀ l ∈ a.document.lines, (∀ c ∈ l.text, isAsciiText c = true) →
      (∀ t ∈ l.tokens, t.kind = .string → t.terminated = true) →
      ∀ d ∈ a.table.declarations, d.line = l.index → ∀ m, d.form = .variable m →
      ∀ init, d.initializer = some init →
      ∀ before sign after, l.codeTokens = before ++ sign :: after →
        sign.kind = .operator → sign.text = "=" → sign.column = l.equalsBehind d.column →
        a.KeepsInitializer d init after := by
  intro a l hl hascii hclosed d hd hline m hform init hinit before sign after htokens _ htext
    hcolumn
  have hdoc := Document.isNumbered_ofText text uri
  obtain ⟨l', hl', hdl, hline'⟩ := DeclarationTable.exists_line_of_mem hd
  obtain rfl : l' = l := hdoc.eq_of_index hl' hl (hline'.symm.trans hline)
  obtain ⟨hlexed, -⟩ := Document.lexed_of_codeTokens_ne_nil hl (by rw [htokens]; simp)
  have hwhole : ∀ t ∈ after, t.IsWhole := by
    intro t ht
    have hmem : t ∈ l'.codeTokens := by
      rw [htokens]
      simp [ht]
    exact ⟨Line.kind_ne_comment hmem, hclosed t (List.mem_filter.1 hmem).1⟩
  obtain ⟨htrimmed, hne⟩ :=
    Collect.initializer_eq hlexed hdl hform hinit htokens hwhole htext hcolumn
  have hspelled (line : Nat) : (codeTokens (lexLine init.toList line false).1).map Token.spelling =
      after.map Token.spelling := by
    rw [map_spelling_codeTokens, htrimmed, String.toList_ofList,
      Line.spellings_behind hlexed hascii htokens hwhole, List.filter_eq_self]
    intro w hw
    obtain ⟨t, ht, rfl⟩ := List.mem_map.1 hw
    simpa [Token.spelling] using (hwhole t ht).1
  refine ⟨hspelled, ?_, ?_⟩
  · intro tokens htokens line
    exact Expression.inferTokens_of_spelling a _ ((hspelled _).trans htokens.symm) line
  · intro typeOf
    rw [initialType, hform, hinit]
    dsimp only
    rw [if_neg (by simpa using hne)]
    exact Expression.inferTokens_of_spelling a _ (hspelled _) _

/-- An initializer with equals signs and slashes in literals, in operators and in comments. -/
def signsInside : List Char :=
  "@Mark var s: Map<Int> = \"a = b\" /* = */ == f(x <= '//') // = 1".toList

/-- The comment in the middle is blanked and the one at the end is cut off. -/
theorem initializers_are_kept_signsInside :
    let a := ofText signsInside none {}
    ∃ d ∈ a.table.declarations, ∃ init after, d.initializer = some init ∧
      init = "\"a = b\"         == f(x <= '//')" ∧
      after.map Token.text = ["\"a = b\"", "==", "f", "(", "x", "<=", "'//'", ")"] ∧
      a.KeepsInitializer d init after := by
  intro a
  have hread : (a.document.lines[0]?.bind fun l => a.table.declarations[0]?.bind fun d =>
      l.codeTokens[8]?.map fun sign =>
        (l.text.all isAsciiText && l.tokens.all (fun t => t.kind != .string || t.terminated) &&
          d.line == l.index && d.form == .variable .var &&
          d.initializer == some "\"a = b\"         == f(x <= '//')" &&
          (l.codeTokens.drop 9).map Token.text ==
            ["\"a = b\"", "==", "f", "(", "x", "<=", "'//'", ")"]) &&
        (sign.kind == .operator && sign.text == "=" &&
          sign.column == l.equalsBehind d.column)) = some true := by
    decide +kernel
  obtain ⟨l, hl, hread⟩ := Option.bind_eq_some_iff.1 hread
  obtain ⟨d, hd, hread⟩ := Option.bind_eq_some_iff.1 hread
  obtain ⟨sign, hsign, hread⟩ := Option.map_eq_some_iff.1 hread
  simp only [Bool.and_eq_true, beq_iff_eq, List.all_eq_true, Bool.or_eq_true, bne_iff_ne] at hread
  obtain ⟨⟨⟨⟨⟨⟨hascii, hclosed⟩, hline⟩, hform⟩, hinit⟩, hafter⟩, ⟨hkind, htext⟩, hcolumn⟩ := hread
  obtain ⟨hlt, rfl⟩ := List.getElem?_eq_some_iff.1 hsign
  have htokens := (List.take_append_drop 8 l.codeTokens).symm
  rw [List.drop_eq_getElem_cons hlt] at htokens
  exact ⟨d, List.mem_of_getElem? hd, _, _, hinit, rfl, hafter,
    initializers_are_kept signsInside none {} l (List.mem_of_getElem? hl) hascii
      (fun t ht hstring => (hclosed t ht).resolve_left (absurd hstring)) d (List.mem_of_getElem? hd)
      hline .var hform _ hinit _ _ _ htokens hkind htext hcolumn⟩

end Analysis

end Polyloft
