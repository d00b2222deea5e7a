import Polyloft.Proofs.Declaration.Header
import Polyloft.Proofs.Query.Member
import Polyloft.Proofs.Query.Total
import Polyloft.Proofs.Token.Word

/-!
# Polyloft.Proofs.Query.Completion

What is offered at a cursor. Every label is offered once. Where the cursor stands at the end of a
name or a keyword, every label starts with it; and where no member is asked for, every name in scope
that goes on from what is written is offered (`completions_extend_written_part`).

The written part is that of the word under the cursor, as it is looked up in the raw text. Completion
takes it from the tokens instead, and only from one that ends at the cursor. So inside of a word
nothing is left out although a part of the word is written (`completion_inside_word`).

## Proof shape

Tokens are laid out one behind the other, so that a name which ends at the cursor is the last token
up to there (`getLast?_filter_stop`). Its text is the written part, because names are words of the
text. What is offered is then read off from the candidates: no label twice, and none that does not
fit, is `matchingItems`; that names in scope are candidates is `ensures_scopeItems`.
-/

namespace Polyloft

open Polyloft.Text

/-! ### The cursor on a line -/

namespace Line

/-- The part of the word under a position that stands before the position. -/
def writtenPart (l : Line) (character : Int) : List Char :=
  match l.wordAt? character with
  | none => []
  | some (word, start, _) => word.toList.take (character.toNat - start)

/-- A name or a keyword ends at the position. -/
def EndsName (l : Line) (character : Int) : Prop :=
  ∃ t ∈ l.codeTokens, t.isName = true ∧ (t.stop : Int) = character

/-- The last code token up to the written part at a position. -/
def tokenBefore? (l : Line) (character : Int) : Option Token :=
  (l.codeTokens.filter fun t =>
    (t.stop : Int) ≤ character - (l.writtenPart character).length).getLast?

/-- What is written of a word is nothing, or else the beginning of a word that the position
touches. -/
theorem writtenPart_cases (l : Line) (character : Int) :
    l.writtenPart character = [] ∨
      ∃ w ∈ wordsFrom 0 l.text, touches character w = true ∧
        l.writtenPart character = w.2.take (character.toNat - w.1) := by
  rw [writtenPart, wordAt?_eq]
  cases hfound : firstTouched (wordsFrom 0 l.text) character with
  | none => exact .inl rfl
  | some found =>
      obtain ⟨w, hw, htouches, rfl⟩ := (firstTouched_eq_some_iff (List.Perm.refl _)).1 hfound
      refine .inr ⟨w, hw, htouches, ?_⟩
      dsimp only
      rw [String.toList_ofList]

/-- Right before the position the text is made of word characters, as far as the written part
reaches. -/
theorem isWord_before {l : Line} (character : Int) {k : Nat} {c : Char} (hc : l.text[k]? = some c)
    (hstart : character - (l.writtenPart character).length ≤ k) (hstop : (k : Int) < character) :
    isWord c = true := by
  rcases l.writtenPart_cases character with hnil | ⟨w, hw, htouches, hpart⟩
  · rw [hnil, List.length_nil] at hstart
    omega
  · rw [touches_iff] at htouches
    obtain ⟨hslice, hname⟩ := slice_of_mem_wordsFrom rfl hw
    rw [hpart, List.length_take] at hstart
    have hat : w.2[k - w.1]? = some c := by
      rw [hslice, Span.slice]
      dsimp only
      rw [List.getElem?_take_of_lt (by omega), List.getElem?_drop, Nat.add_sub_cancel' (by omega),
        hc]
    exact isWord_of_mem hname (List.mem_of_getElem? hat)

/-- A name that ends at the position is what is written. -/
theorem writtenPart_of_name {l : Line} {t : Token}
    (hword : (t.column, t.text.toList) ∈ wordsFrom 0 l.text) :
    l.writtenPart t.stop = t.text.toList := by
  have hfound : l.wordAt? t.stop = some (t.text, t.column, t.stop) := by
    rw [wordAt?_eq]
    refine (firstTouched_eq_some_iff (List.Perm.refl _)).2 ⟨_, hword, ?_, ?_⟩
    · rw [touches_iff, Token.stop, String.length_toList]
      omega
    · rw [String.ofList_toList, String.length_toList]
      rfl
  rw [writtenPart, hfound]
  dsimp only
  rw [Int.toNat_natCast, Token.stop, Nat.add_sub_cancel_left, ← String.length_toList,
    List.take_length]

end Line

/-! ### Tokens up to the cursor -/

section

variable {text : List Char} {uri : Option String} {l : Line}

theorem Document.mem_lines_of_line? {doc : Document} {index : Int} (h : doc.line? index = some l) :
    l ∈ doc.lines := by
  rw [line?] at h
  split at h
  · exact absurd h (by simp)
  · exact List.mem_of_getElem? h

/-- The code tokens of a line are laid out one behind the other, and each is a part of the text. -/
theorem Document.codeTokens_laidOut (hl : l ∈ (ofText text uri).lines) :
    (l.codeTokens.Pairwise fun t u => t.column < u.column ∧ t.stop ≤ u.column) ∧
      ∀ t ∈ l.codeTokens, t.text ≠ "" ∧ t.text.toList = Span.slice ⟨t.column, t.stop⟩ l.text := by
  by_cases hnil : l.codeTokens = []
  · rw [hnil]
    exact ⟨.nil, by simp⟩
  · obtain ⟨-, hlossless⟩ := lexed_of_codeTokens_ne_nil hl hnil
    refine ⟨hlossless.ordered.sublist List.filter_sublist, fun t ht => ?_⟩
    have htoken : t ∈ l.tokens := List.mem_of_mem_filter ht
    exact ⟨hlossless.nonempty t htoken, (hlossless.slice t htoken).2⟩

/-- Names and keywords are words of the text. -/
theorem Document.mem_wordsFrom_of_isName (hl : l ∈ (ofText text uri).lines) {t : Token}
    (ht : t ∈ l.codeTokens) (hname : t.isName = true) :
    (t.column, t.text.toList) ∈ Line.wordsFrom 0 l.text := by
  obtain ⟨i, hi⟩ := List.mem_iff_getElem?.1 hl
  obtain ⟨flag, -, heq⟩ := exists_lexLine hi
  have htoken : t ∈ l.tokens := List.mem_of_mem_filter ht
  rw [heq] at htoken
  exact mem_wordsFrom_of_mem_lexLine htoken hname

/-- A dot stands right before the place where its token ends. -/
theorem Document.getElem?_of_dot (hl : l ∈ (ofText text uri).lines) {t : Token}
    (ht : t ∈ l.codeTokens) (hdot : t.isSymbol "." = true) :
    t.stop = t.column + 1 ∧ l.text[t.column]? = some '.' := by
  have htext : t.text = "." := by
    rw [Token.isSymbol, Bool.and_eq_true, beq_iff_eq] at hdot
    exact hdot.2
  obtain ⟨-, hslice⟩ := (codeTokens_laidOut hl).2 t ht
  have hstop : t.stop = t.column + 1 := by
    rw [Token.stop, htext]
    rfl
  refine ⟨hstop, ?_⟩
  rw [htext, hstop, Span.slice] at hslice
  dsimp only at hslice
  rw [Nat.add_sub_cancel_left] at hslice
  have hfirst : ((l.text.drop t.column).take 1)[0]? = some '.' := by
    rw [← hslice]
    rfl
  rwa [List.getElem?_take_of_lt Nat.one_pos, List.getElem?_drop, Nat.add_zero] at hfirst

end

section

variable {tokens : List Token} {t : Token}

/-- A token that ends at a column is the last one up to there. -/
theorem getLast?_filter_stop
    (hord : tokens.Pairwise fun t u => t.column < u.column ∧ t.stop ≤ u.column)
    (hne : ∀ t ∈ tokens, t.text ≠ "") (ht : t ∈ tokens) :
    tokens.filter (fun u => (u.stop : Int) ≤ t.stop) =
      tokens.filter (fun u => (u.stop : Int) ≤ t.column) ++ [t] := by
  obtain ⟨before, after, rfl⟩ := List.append_of_mem ht
  have htext := Token.column_lt_stop (hne t ht)
  obtain ⟨-, hafter, hbetween⟩ := List.pairwise_append.1 hord
  have hbefore : ∀ u ∈ before, u.stop ≤ t.column := fun u hu =>
    (hbetween u hu t (List.mem_cons_self ..)).2
  have hlater : ∀ u ∈ after, t.stop < u.stop := by
    intro u hu
    have hcolumn := ((List.pairwise_cons.1 hafter).1 u hu).2
    have := Token.column_lt_stop (hne u (by simp [hu]))
    omega
  have hkeep (k : Nat) (hk : t.column ≤ k) :
      before.filter (fun u => decide ((u.stop : Int) ≤ k)) = before := by
    refine List.filter_eq_self.2 fun u hu => ?_
    have := hbefore u hu
    simp only [decide_eq_true_eq]
    omega
  have hdrop (k : Nat) (hk : k ≤ t.stop) :
      after.filter (fun u => decide ((u.stop : Int) ≤ k)) = [] := by
    refine List.filter_eq_nil_iff.2 fun u hu => ?_
    have := hlater u hu
    simp only [decide_eq_true_eq]
    omega
  rw [List.filter_append, List.filter_append, hkeep _ (Nat.le_of_lt htext), hkeep _ (Nat.le_refl _),
    List.filter_cons_of_pos (by simp), List.filter_cons_of_neg (by simpa using htext),
    hdrop _ (Nat.le_refl _), hdrop _ (Nat.le_of_lt htext), List.append_nil]

end

/-- Where every answer has something in common with its item, the answers have it in the order of
the items. -/
theorem Infer.ensures_map_mapM {α β γ : Type} {f : α → Infer β} {g : β → γ} {h : α → γ}
    {xs : List α} (hf : ∀ x ∈ xs, Ensures (fun y => g y = h x) (f x)) :
    Ensures (fun ys => ys.map g = xs.map h) (xs.mapM f) := by
  induction xs with
  | nil => exact .pure rfl
  | cons x xs ih =>
      rw [List.forall_mem_cons] at hf
      rw [List.mapM_cons]
      refine .bind hf.1 fun y hy => .bind (ih hf.2) fun ys hys => .pure ?_
      rw [List.map_cons, List.map_cons, hy, hys]

namespace Analysis

/-- Where a name ends at the cursor, it is the written part, and the tokens up to its start come
before it. -/
theorem typedPart_of_name {tokens : List Token} {t : Token}
    (hord : tokens.Pairwise fun t u => t.column < u.column ∧ t.stop ≤ u.column)
    (hne : ∀ t ∈ tokens, t.text ≠ "") (ht : t ∈ tokens) (hname : t.isName = true) :
    typedPart tokens t.stop =
      (t.text, (tokens.filter fun u => (u.stop : Int) ≤ t.column).reverse) := by
  rw [typedPart, getLast?_filter_stop hord hne ht, List.reverse_append, List.reverse_singleton,
    List.singleton_append]
  dsimp only
  rw [Token.isName] at hname
  rw [if_pos (by simp [hname])]

/-- Where none ends, nothing counts as written. -/
theorem typedPart_of_not_name {tokens : List Token} {character : Int}
    (h : ∀ t ∈ tokens, t.isName = true → (t.stop : Int) ≠ character) :
    typedPart tokens character =
      ("", (tokens.filter fun u => (u.stop : Int) ≤ character).reverse) := by
  rw [typedPart]
  split
  · rename_i heq
    rw [heq]
  · rename_i t before heq
    have ht : t ∈ tokens := by
      have hmem : t ∈ (tokens.filter fun u => (u.stop : Int) ≤ character).reverse := by
        rw [heq]
        exact List.mem_cons_self ..
      exact List.mem_of_mem_filter (List.mem_reverse.1 hmem)
    rw [if_neg, heq]
    rw [Bool.and_eq_true, beq_iff_eq]
    rintro ⟨hname, hstop⟩
    exact h t ht hname hstop

/-! ### Candidates -/

/-- No label is kept twice. -/
theorem nodup_labels_matchingItems (typed : String) (items : List CompletionItem) :
    ((matchingItems typed items).map CompletionItem.label).Nodup := by
  unfold matchingItems
  refine List.foldlRecOn (motive := fun kept : List CompletionItem =>
    (kept.map CompletionItem.label).Nodup) _ _
    List.nodup_nil ?_
  intro kept hkept next _
  split
  · exact hkept
  · rename_i hfits
    simp only [Bool.or_eq_true, not_or, List.any_eq_true, beq_iff_eq, not_exists, not_and] at hfits
    rw [List.map_append, List.map_singleton, ← List.concat_eq_append]
    refine hkept.concat ?_
    rw [List.mem_map]
    rintro ⟨k, hk, hlabel⟩
    exact hfits.1 k hk hlabel

variable {a : Analysis}

/-- A declaration in scope is offered by its name. -/
theorem ensures_scopeItem (d : Declaration) :
    Infer.Ensures (fun item => item.label = d.name) (a.scopeItem d) := by
  unfold scopeItem
  refine .bind (.trivial _) fun documentation _ => ?_
  split
  · exact .pure rfl
  · exact .bind (.trivial _) fun signature _ => .pure rfl
  · split
    · exact .pure rfl
    · split
      · exact .pure rfl
      · exact .pure rfl

/-- Every name in scope is a candidate, but for methods. -/
theorem ensures_scopeItems (line : Int) :
    Infer.Ensures (fun items => ∀ d ∈ a.table.visibleNames line a.tree,
      d.owner = none ∨ d.kind ≠ .function → ∃ item ∈ items, item.label = d.name)
      (a.scopeItems line) := by
  unfold scopeItems
  refine .bind (.trivial _) fun provided _ => ?_
  refine .bind (Infer.ensures_map_mapM fun d _ => ensures_scopeItem d) fun declared hdeclared =>
    .pure ?_
  intro d hd hplain
  have hmem : d.name ∈ declared.map CompletionItem.label := by
    rw [hdeclared]
    refine List.mem_map_of_mem (List.mem_filter.2 ⟨hd, ?_⟩)
    rcases hplain with hplain | hplain <;> simp [hplain]
  obtain ⟨item, hitem, hlabel⟩ := List.mem_map.1 hmem
  exact ⟨item, by simp [hitem], hlabel⟩

/-- What is offered on a line: the candidates for the tokens before the cursor that fit what is
written. -/
theorem exists_candidates {position : Position} {l : Line} {typed : String} {before : List Token}
    {memo memo' : Memo} {items : List CompletionItem}
    (hl : a.document.line? position.line = some l)
    (htyped : typedPart l.codeTokens position.character = (typed, before))
    (h : (a.complete position).after memo = (.ok items, memo')) :
    ∃ candidates, items = matchingItems typed candidates ∧
      (before.head?.any (·.isSymbol ".") = false →
        ∀ d ∈ a.table.visibleNames position.line a.tree, d.owner = none ∨ d.kind ≠ .function →
          ∃ item ∈ candidates, item.label = d.name) := by
  rw [complete, hl] at h
  simp only [htyped] at h
  cases hcontext : MemberContext.after before with
  | plain =>
      rw [hcontext] at h
      obtain ⟨candidates, memo₁, hcandidates, h⟩ := Infer.exists_of_after_bind_eq_ok h
      refine ⟨candidates, (Except.ok.inj (Prod.mk.inj h).1).symm, fun _ => ?_⟩
      exact ensures_scopeItems position.line _ _ _ hcandidates
  | member receiver =>
      rw [hcontext] at h
      have hcandidates : ∃ candidates, items = matchingItems typed candidates := by
        dsimp only at h
        split at h
        all_goals
          obtain ⟨candidates, memo₁, -, h⟩ := Infer.exists_of_after_bind_eq_ok h
          exact ⟨candidates, (Except.ok.inj (Prod.mk.inj h).1).symm⟩
      obtain ⟨candidates, rfl⟩ := hcandidates
      refine ⟨candidates, rfl, fun hdot => ?_⟩
      -- Behind anything but a dot no member is asked for.
      cases before with
      | nil => simp [MemberContext.after] at hcontext
      | cons t before =>
          rw [List.head?_cons, Option.any_some] at hdot
          rw [MemberContext.after, hdot, if_neg Bool.false_ne_true] at hcontext
          simp at hcontext

/-! ### What is offered -/

section

variable {l : Line} {character : Int}

/-- Where a name ends at the cursor, it is the written part of a word of the text, and the tokens up
to where it starts come before it. -/
theorem typedPart_of_endsName {text : List Char} {uri : Option String}
    (hl : l ∈ (Document.ofText text uri).lines) (h : l.EndsName character) :
    ∃ typed before, typedPart l.codeTokens character = (typed, before) ∧
      typed.toList = l.writtenPart character ∧ before.head? = l.tokenBefore? character := by
  obtain ⟨t, ht, hname, rfl⟩ := h
  obtain ⟨hord, hparts⟩ := Document.codeTokens_laidOut hl
  have hpart := Line.writtenPart_of_name (Document.mem_wordsFrom_of_isName hl ht hname)
  refine ⟨_, _, typedPart_of_name hord (fun u hu => (hparts u hu).1) ht hname, hpart.symm, ?_⟩
  have hstart : (t.stop : Int) - (l.writtenPart t.stop).length = t.column := by
    rw [hpart, String.length_toList, Token.stop]
    omega
  rw [List.head?_reverse, Line.tokenBefore?, hstart]

/-- Where none does, nothing counts as written, and no dot comes before the cursor unless one comes
before the written part: a dot is no part of a word. -/
theorem typedPart_of_not_endsName {text : List Char} {uri : Option String}
    (hl : l ∈ (Document.ofText text uri).lines) (h : ¬l.EndsName character)
    (hdot : (l.tokenBefore? character).any (·.isSymbol ".") = false) :
    ∃ before, typedPart l.codeTokens character = ("", before) ∧
      before.head?.any (·.isSymbol ".") = false := by
  refine ⟨_, typedPart_of_not_name fun t ht hname hstop => h ⟨t, ht, hname, hstop⟩, ?_⟩
  rw [List.head?_reverse]
  cases hlast : (l.codeTokens.filter fun u => (u.stop : Int) ≤ character).getLast? with
  | none => rfl
  | some t =>
      rw [Option.any_some]
      by_contra hsymbol
      rw [Bool.not_eq_false] at hsymbol
      obtain ⟨before, hbefore⟩ := List.getLast?_eq_some_iff.1 hlast
      have hmem : t ∈ l.codeTokens.filter fun u => (u.stop : Int) ≤ character := by
        rw [hbefore]
        simp
      obtain ⟨ht, hstop⟩ := List.mem_filter.1 hmem
      have hstart : (t.stop : Int) ≤ character - (l.writtenPart character).length := by
        obtain ⟨hone, hchar⟩ := Document.getElem?_of_dot hl ht hsymbol
        have hstop : (t.stop : Int) ≤ character := by simpa using hstop
        by_contra hlate
        have hword : isWord '.' = true :=
          Line.isWord_before character hchar (by omega) (by omega)
        exact absurd hword (by decide)
      have hlast' : l.tokenBefore? character = some t := by
        have hfilter : (l.codeTokens.filter fun u =>
            (u.stop : Int) ≤ character - (l.writtenPart character).length) =
              (l.codeTokens.filter fun u => (u.stop : Int) ≤ character).filter fun u =>
                (u.stop : Int) ≤ character - (l.writtenPart character).length := by
          rw [List.filter_filter]
          refine List.filter_congr fun u _ => ?_
          rw [Bool.eq_iff_iff, Bool.and_eq_true, decide_eq_true_eq, decide_eq_true_eq]
          omega
        rw [Line.tokenBefore?, hfilter, hbefore, List.filter_append,
          List.filter_cons_of_pos (by simpa using hstart), List.filter_nil, List.getLast?_concat]
      rw [hlast', Option.any_some, hsymbol] at hdot
      exact Bool.noConfusion hdot

end

/-- On a line of a document, completion answers, if each package of the catalog is named by a text,
and the labels of an answer are pairwise different. If a name or keyword ends at the cursor, or no
part of a word is written to its left, every label starts with the written part. If the code token
before the written part is not a dot, every name in scope that is no member function is offered: all
of those which start with the written part, and all of them where no name ends at the cursor. -/
theorem completions_extend_written_part (text : List Char) (uri : Option String)
    (catalog : Catalog) (position : Position) {l : Line}
    (hl : (Document.ofText text uri).line? position.line = some l) :
    let a := Analysis.ofText text uri catalog
    let part := l.writtenPart position.character
    ((∀ p ∈ catalog.packages, ∃ name, p.name = .str name) →
        ∃ items, (a.complete position).answer = .ok items) ∧
      ∀ memo items memo', (a.complete position).after memo = (.ok items, memo') →
        (items.map CompletionItem.label).Nodup ∧
          (part = [] ∨ l.EndsName position.character →
            ∀ item ∈ items, part <+: item.label.toList) ∧
          ((l.tokenBefore? position.character).any (·.isSymbol ".") = false →
            ∀ d ∈ a.table.visibleNames position.line a.tree,
              d.owner = none ∨ d.kind ≠ .function →
              part <+: d.name.toList ∨ ¬l.EndsName position.character →
              ∃ item ∈ items, item.label = d.name) := by
  intro a part
  refine ⟨fun hnamed => ?_, fun memo items memo' h => ?_⟩
  · obtain ⟨items, hitems, -⟩ :=
      (returns_complete (isRead_ofText text uri catalog) hnamed position).exists_answer_eq_ok
    exact ⟨items, hitems⟩
  have hmem : l ∈ (Document.ofText text uri).lines := Document.mem_lines_of_line? hl
  by_cases hends : l.EndsName position.character
  · obtain ⟨typed, before, htyped, hpart, hbefore⟩ := typedPart_of_endsName hmem hends
    obtain ⟨candidates, rfl, hscope⟩ := exists_candidates (a := a) hl htyped h
    refine ⟨nodup_labels_matchingItems _ _, fun _ item hitem => ?_, fun hdot d hd hplain hfits => ?_⟩
    · rw [show part = typed.toList from hpart.symm]
      exact (mem_of_mem_matchingItems hitem).2
    · rw [← hbefore] at hdot
      obtain ⟨item, hitem, hlabel⟩ := hscope hdot d hd hplain
      rw [← hlabel]
      refine exists_mem_matchingItems hitem ?_
      rw [hpart, hlabel]
      exact hfits.resolve_right (not_not_intro hends)
  · obtain ⟨candidates, rfl, -⟩ := exists_candidates (a := a) hl
      (typedPart_of_not_name fun t ht hname hstop => hends ⟨t, ht, hname, hstop⟩) h
    refine ⟨nodup_labels_matchingItems _ _, fun hpart item _ => ?_, fun hdot d hd hplain _ => ?_⟩
    · rw [hpart.resolve_right hends]
      exact List.nil_prefix
    · obtain ⟨before, htyped, hplainBefore⟩ := typedPart_of_not_endsName hmem hends hdot
      obtain ⟨_, hitems, hscope⟩ := exists_candidates (a := a) hl htyped h
      obtain ⟨item, hitem, hlabel⟩ := hscope hplainBefore d hd hplain
      rw [hitems, ← hlabel]
      exact exists_mem_matchingItems hitem List.nil_prefix

/-- Two variables, and the beginning of the name of one of them. -/
def beginningOfName : List Char :=
  "var apple = 1\nvar beta = 2\napp".toList

theorem completions_extend_written_part_beginning :
    let a := Analysis.ofText beginningOfName none {}
    (∃ l, a.document.line? 2 = some l ∧ l.EndsName 3 ∧ l.writtenPart 3 = "app".toList) ∧
      ∃ items, (a.complete ⟨2, 3⟩).answer = .ok items ∧
        (items.map CompletionItem.label).Nodup ∧
        (∀ item ∈ items, "app".toList <+: item.label.toList) ∧
        ∃ item ∈ items, item.label = "apple" := by
  intro a
  let l : Line := ⟨2, "app".toList, [⟨.identifier, "app", 2, 0, true⟩]⟩
  have hchecked : a.document.line? 2 = some l ∧ l.writtenPart 3 = "app".toList ∧
      (l.tokenBefore? 3).any (·.isSymbol ".") = false ∧
      ∃ d ∈ a.table.visibleNames 2 a.tree, d.owner = none ∧ d.name = "apple" := by
    decide +kernel
  obtain ⟨hl, hpart, hdot, d, hd, howner, hname⟩ := hchecked
  have hends : l.EndsName 3 := ⟨_, List.mem_singleton_self _, rfl, rfl⟩
  obtain ⟨hanswers, hlabels⟩ := completions_extend_written_part beginningOfName none {} ⟨2, 3⟩ hl
  obtain ⟨items, hitems⟩ := hanswers (by simp)
  obtain ⟨hnodup, hfits, hscope⟩ := hlabels {} items _ (Prod.ext hitems rfl)
  obtain ⟨item, hitem, hlabel⟩ :=
    hscope hdot d hd (.inl howner) (.inl (by rw [hpart, hname]; decide))
  refine ⟨⟨l, hl, hends, hpart⟩, items, hitems, hnodup, ?_, item, hitem, hlabel.trans hname⟩
  intro item hitem
  have := hfits (.inr hends) item hitem
  rwa [hpart] at this

/-- Inside of the name, between its second and its third letter, nothing is left out. -/
theorem completion_inside_word :
    let a := Analysis.ofText beginningOfName none {}
    ∃ l items, a.document.line? 2 = some l ∧ l.writtenPart 2 = "ap".toList ∧
      (a.complete ⟨2, 2⟩).answer = .ok items ∧
      ∃ item ∈ items, item.label = "beta" ∧ ¬"ap".toList <+: item.label.toList := by
  intro a
  have hchecked :
      ((a.document.line? 2).any fun l => l.writtenPart 2 == "ap".toList) = true ∧
        ((a.complete ⟨2, 2⟩).answer.toOption.any fun items =>
          items.any fun item => item.label == "beta") = true := by
    decide +kernel
  obtain ⟨hpart, hoffered⟩ := hchecked
  obtain ⟨l, hl, hpart⟩ := (Option.any_eq_true ..).1 hpart
  obtain ⟨items, hitems, hoffered⟩ := (Option.any_eq_true ..).1 hoffered
  obtain ⟨item, hitem, hlabel⟩ := List.any_eq_true.1 hoffered
  refine ⟨l, items, hl, eq_of_beq hpart, eq_ok_of_toOption hitems, item, hitem,
    eq_of_beq hlabel, ?_⟩
  rw [eq_of_beq hlabel]
  decide

end Analysis

end Polyloft
