import Mathlib.Order.Bounds.Defs
import Polyloft.Proofs.Rule.Report
import Polyloft.Proofs.Token.Brace
import Polyloft.Rule.Structure

/-!
# Polyloft.Proofs.Rule.Brace

What the rule about unmatched braces reports: the fewest braces without which the braces of a
document are balanced, closing ones first, each once. Nothing is reported exactly if they are
balanced as they are.

## Proof shape

`BalancedBraces` is the grammar of groups in groups; a count of the open braces accepts the same
sequences (`balanced_iff_closes`), from any depth on. The search for partners is then followed step
by step. What it reports comes in the order of the braces (`sublist_unmatchedBracesFrom`), and the
rest closes the pending braces that find a partner (`closes_filter_notMem`). Any other choice that
leaves balanced braces is followed along with the search: the two depths never differ by more than
the braces that the choice has left out and the search has not reported
(`length_unmatchedBracesFrom_le`).
-/

namespace Polyloft

/-! ### Balanced sequences -/

/-- Every brace has its partner. -/
inductive BalancedBraces : List Token → Prop where
  | nil : BalancedBraces []
  | pair {o c : Token} {inside rest : List Token} (ho : o.isSymbol "\x7b" = true)
      (hc : c.isSymbol "\x7d" = true) (hinside : BalancedBraces inside)
      (hrest : BalancedBraces rest) : BalancedBraces (o :: (inside ++ c :: rest))

/-- The braces close one another and `depth` more that were opened before. -/
inductive Closes : Nat → List Token → Prop where
  | nil : Closes 0 []
  | opening {t : Token} {ts : List Token} {depth : Nat} (ht : t.isSymbol "\x7b" = true)
      (h : Closes (depth + 1) ts) : Closes depth (t :: ts)
  | closing {t : Token} {ts : List Token} {depth : Nat} (ht : t.isSymbol "\x7d" = true)
      (h : Closes depth ts) : Closes (depth + 1) (t :: ts)

/-- `depth` closing braces, with balanced sequences around them. -/
def BalancedAround : Nat → List Token → Prop
  | 0, ts => BalancedBraces ts
  | depth + 1, ts => ∃ inside c rest, ts = inside ++ c :: rest ∧ BalancedBraces inside ∧
      c.isSymbol "\x7d" = true ∧ BalancedAround depth rest

variable {depth : Nat} {t o c : Token} {tokens pending kept ts us inside rest : List Token}

theorem BalancedBraces.closes_append (h : BalancedBraces ts) (hus : Closes depth us) :
    Closes depth (ts ++ us) := by
  induction h generalizing depth us with
  | nil => exact hus
  | @pair o c inside rest ho hc _ _ ihinside ihrest =>
      rw [List.cons_append, List.append_assoc, List.cons_append]
      exact .opening ho (ihinside (.closing hc (ihrest hus)))

/-- A group goes in front of the first part. -/
theorem BalancedAround.group (ho : o.isSymbol "\x7b" = true) (hc : c.isSymbol "\x7d" = true)
    (hinside : BalancedBraces inside) (hrest : BalancedAround depth rest) :
    BalancedAround depth (o :: (inside ++ c :: rest)) := by
  cases depth with
  | zero => exact .pair ho hc hinside hrest
  | succ depth =>
      obtain ⟨first, d, others, rfl, hfirst, hd, hothers⟩ := hrest
      exact ⟨o :: (inside ++ c :: first), d, others, by simp, .pair ho hc hinside hfirst, hd,
        hothers⟩

theorem Closes.balancedAround (h : Closes depth ts) : BalancedAround depth ts := by
  induction h with
  | nil => exact .nil
  | opening ht _ ih =>
      obtain ⟨inside, c, rest, rfl, hinside, hc, hrest⟩ := ih
      exact .group ht hc hinside hrest
  | closing ht _ ih => exact ⟨[], _, _, rfl, .nil, ht, ih⟩

theorem Closes.of_opening (h : Closes depth (t :: ts)) (ht : t.isSymbol "\x7b" = true) :
    Closes (depth + 1) ts := by
  cases h with
  | opening _ h => exact h
  | closing hclosing _ => simp [Token.isSymbol_closing_of_opening ht] at hclosing

theorem Closes.of_closing (h : Closes depth (t :: ts)) (ht : t.isSymbol "\x7d" = true) :
    ∃ outer, depth = outer + 1 ∧ Closes outer ts := by
  cases h with
  | opening hopening _ => simp [Token.isSymbol_closing_of_opening hopening] at ht
  | closing _ h => exact ⟨_, rfl, h⟩

/-- Groups in groups are what a count of the open braces accepts. -/
theorem balanced_iff_closes : BalancedBraces ts ↔ Closes 0 ts := by
  refine ⟨fun h => ?_, Closes.balancedAround⟩
  have hclosed := h.closes_append .nil
  rwa [List.append_nil] at hclosed

/-! ### Braces without a partner -/

namespace Rule

/-- The braces without a partner are found in their order. -/
theorem sublist_unmatchedBracesFrom (pending tokens : List Token) :
    (unmatchedBracesFrom pending tokens).Sublist (pending.reverse ++ braces tokens) := by
  fun_induction unmatchedBracesFrom pending tokens with
  | case1 pending => simp [braces]
  | case2 pending t ts ht ih =>
      rw [braces_cons_of_isBrace (Token.isBrace_of_opening ht)]
      simpa using ih
  | case3 t ts _ ht ih =>
      rw [braces_cons_of_isBrace (Token.isBrace_of_closing ht)]
      exact ih.cons_cons t
  | case4 t ts _ ht partner pending ih =>
      rw [braces_cons_of_isBrace (Token.isBrace_of_closing ht), List.reverse_cons,
        List.append_assoc]
      exact ih.trans ((List.Sublist.refl _).append (.cons _ (.cons _ (.refl _))))
  | case5 pending t ts hopening hclosing ih =>
      rwa [braces_cons_of_not_isBrace (Token.isBrace_eq_false hopening hclosing)]

/-- Closing braces without a partner are found before opening ones. -/
theorem exists_unmatchedBracesFrom_eq (tokens : List Token)
    (hpending : ∀ t ∈ pending, t.isSymbol "\x7b" = true) :
    ∃ closing opening, unmatchedBracesFrom pending tokens = closing ++ opening ∧
      (∀ t ∈ closing, t.isSymbol "\x7d" = true) ∧ ∀ t ∈ opening, t.isSymbol "\x7b" = true := by
  fun_induction unmatchedBracesFrom pending tokens with
  | case1 pending => exact ⟨[], pending.reverse, rfl, by simp, by simpa using hpending⟩
  | case2 pending t ts ht ih => exact ih (List.forall_mem_cons.2 ⟨ht, hpending⟩)
  | case3 t ts _ ht ih =>
      obtain ⟨closing, opening, heq, hclosing, hopening⟩ := ih (by simp)
      exact ⟨t :: closing, opening, by rw [heq, List.cons_append],
        List.forall_mem_cons.2 ⟨ht, hclosing⟩, hopening⟩
  | case4 t ts _ ht partner pending ih => exact ih (List.forall_mem_cons.1 hpending).2
  | case5 pending t ts _ _ ih => exact ih hpending

/-- Without the braces that have no partner, the others close one another and those of the pending
ones that have a partner. -/
theorem closes_filter_notMem (pending tokens : List Token)
    (hnodup : (pending ++ braces tokens).Nodup) :
    Closes (pending.filter (· ∉ unmatchedBracesFrom pending tokens)).length
      ((braces tokens).filter (· ∉ unmatchedBracesFrom pending tokens)) := by
  fun_induction unmatchedBracesFrom pending tokens with
  | case1 pending =>
      have hnone : pending.filter (· ∉ pending.reverse) = [] := by simp
      rw [hnone]
      exact .nil
  | case2 pending t ts ht ih =>
      rw [braces_cons_of_isBrace (Token.isBrace_of_opening ht)] at hnodup ⊢
      have ih := ih (by simpa using List.nodup_middle.1 hnodup)
      by_cases hmem : t ∈ unmatchedBracesFrom (t :: pending) ts
      · rw [List.filter_cons_of_neg (by simpa using hmem)] at ih ⊢
        exact ih
      · rw [List.filter_cons_of_pos (by simpa using hmem)] at ih ⊢
        exact .opening ht ih
  | case3 t ts _ ht ih =>
      rw [braces_cons_of_isBrace (Token.isBrace_of_closing ht)] at hnodup ⊢
      obtain ⟨hnot, hrest⟩ := List.nodup_cons.1 hnodup
      rw [List.filter_cons_of_neg (by simp)]
      have hfilter : (braces ts).filter (· ∉ t :: unmatchedBracesFrom [] ts) =
          (braces ts).filter (· ∉ unmatchedBracesFrom [] ts) := by
        refine List.filter_congr fun u hu => ?_
        have hne : u ≠ t := fun h => hnot (h ▸ hu)
        simp [hne]
      rw [hfilter]
      exact ih hrest
  | case4 t ts _ ht partner pending ih =>
      rw [braces_cons_of_isBrace (Token.isBrace_of_closing ht)] at hnodup ⊢
      have hmoved : (t :: partner :: (pending ++ braces ts)).Nodup := by
        simpa using List.nodup_middle.1 hnodup
      obtain ⟨ht', hmoved⟩ := List.nodup_cons.1 hmoved
      obtain ⟨hpartner, hrest⟩ := List.nodup_cons.1 hmoved
      have hsub := (sublist_unmatchedBracesFrom pending ts).subset
      have hnot (u : Token) (hu : u ∉ pending ++ braces ts) : u ∉ unmatchedBracesFrom pending ts :=
        fun h => hu (by simpa using hsub h)
      rw [List.filter_cons_of_pos (by simpa using hnot partner hpartner),
        List.filter_cons_of_pos
          (by simpa using hnot t fun h => ht' (List.mem_cons_of_mem _ h))]
      exact .closing ht (ih hrest)
  | case5 pending t ts hopening hclosing ih =>
      rw [braces_cons_of_not_isBrace (Token.isBrace_eq_false hopening hclosing)] at hnodup ⊢
      exact ih hnodup

/-- However the braces that are kept are chosen, at least as many others are left out as have no
partner, give or take the difference between the depths at the start. -/
theorem length_unmatchedBracesFrom_le (pending : List Token)
    (hkept : kept.Sublist (braces tokens)) (hcloses : Closes depth kept) :
    (unmatchedBracesFrom pending tokens).length + kept.length ≤
      (braces tokens).length + (pending.length - depth) + (depth - pending.length) := by
  fun_induction unmatchedBracesFrom pending tokens generalizing kept depth with
  | case1 pending =>
      obtain rfl := List.sublist_nil.1 hkept
      cases hcloses
      simp [braces]
  | case2 pending t ts ht ih =>
      rw [braces_cons_of_isBrace (Token.isBrace_of_opening ht)] at hkept ⊢
      rcases List.sublist_cons_iff.1 hkept with hkept | ⟨rest, rfl, hrest⟩
      · have := ih hkept hcloses
        simp only [List.length_cons] at this ⊢
        omega
      · have := ih hrest (hcloses.of_opening ht)
        simp only [List.length_cons] at this ⊢
        omega
  | case3 t ts _ ht ih =>
      -- A closing brace that is kept closes one that the search has given up or paired off.
      rw [braces_cons_of_isBrace (Token.isBrace_of_closing ht)] at hkept ⊢
      rcases List.sublist_cons_iff.1 hkept with hkept | ⟨rest, rfl, hrest⟩
      · have := ih hkept hcloses
        simp only [List.length_cons, List.length_nil] at this ⊢
        omega
      · obtain ⟨outer, rfl, houter⟩ := hcloses.of_closing ht
        have := ih hrest houter
        simp only [List.length_cons, List.length_nil] at this ⊢
        omega
  | case4 t ts _ ht partner pending ih =>
      rw [braces_cons_of_isBrace (Token.isBrace_of_closing ht)] at hkept ⊢
      rcases List.sublist_cons_iff.1 hkept with hkept | ⟨rest, rfl, hrest⟩
      · have := ih hkept hcloses
        simp only [List.length_cons] at this ⊢
        omega
      · obtain ⟨outer, rfl, houter⟩ := hcloses.of_closing ht
        have := ih hrest houter
        simp only [List.length_cons] at this ⊢
        omega
  | case5 pending t ts hopening hclosing ih =>
      rw [braces_cons_of_not_isBrace (Token.isBrace_eq_false hopening hclosing)] at hkept ⊢
      exact ih hkept hcloses

/-! ### Reports -/

/-- What is to be reported of the braces of a document. -/
structure BracesReported (doc : Document) (reported : List Token) : Prop where
  /-- Braces count where they stand outside of comments and literals, and nowhere else. -/
  written : ∀ l ∈ doc.lines, ∀ c, c = '{' ∨ c = '}' → ∀ k,
    ((∃ t ∈ braces doc.codeTokens,
      t.line = l.index ∧ t.column = k ∧ t.text = String.ofList [c]) ↔
      l.text[k]? = some c ∧
        ∀ t ∈ l.tokens, t.kind = .string ∨ t.kind = .comment → ¬t.StandsOver k)
  inOrder : reported.Sublist (braces doc.codeTokens)
  once : (reported.map Token.range).Nodup
  closingFirst : ∀ c ∈ reported, ∀ o ∈ reported, c.isSymbol "\x7d" = true →
    o.isSymbol "\x7b" = true → c.Precedes o
  balanced : BalancedBraces ((braces doc.codeTokens).filter (· ∉ reported))
  /-- No smaller number of braces can be left out so that the others are balanced. -/
  fewest : IsLeast {n | ∃ kept, kept.Sublist (braces doc.codeTokens) ∧ BalancedBraces kept ∧
    n + kept.length = (braces doc.codeTokens).length} reported.length
  none_iff : reported = [] ↔ BalancedBraces (braces doc.codeTokens)

theorem sublist_unmatchedBraces (tokens : List Token) :
    (unmatchedBraces tokens).Sublist (braces tokens) :=
  sublist_unmatchedBracesFrom [] tokens

theorem balanced_filter_notMem (hnodup : (braces tokens).Nodup) :
    BalancedBraces ((braces tokens).filter (· ∉ unmatchedBraces tokens)) :=
  (closes_filter_notMem [] tokens hnodup).balancedAround

theorem length_unmatchedBraces_le (hkept : kept.Sublist (braces tokens))
    (hbalanced : BalancedBraces kept) :
    (unmatchedBraces tokens).length + kept.length ≤ (braces tokens).length := by
  simpa [unmatchedBraces] using
    length_unmatchedBracesFrom_le [] hkept (balanced_iff_closes.1 hbalanced)

/-- What is left without a part of a list that has nothing twice. -/
theorem length_add_length_filter_notMem {α : Type} [DecidableEq α] {xs ys : List α}
    (hnodup : ys.Nodup) (hsub : xs.Sublist ys) :
    xs.length + (ys.filter (· ∉ xs)).length = ys.length := by
  have hperm : (ys.filter (· ∈ xs)).Perm xs := by
    refine (List.perm_ext_iff_of_nodup (hnodup.filter _) (hsub.nodup hnodup)).2 fun x => ?_
    simpa using fun hx => hsub.subset hx
  rw [List.length_eq_length_filter_add (l := ys) (· ∈ xs), hperm.length_eq]
  simp

theorem isLeast_length_unmatchedBraces (hnodup : (braces tokens).Nodup) :
    IsLeast {n | ∃ kept, kept.Sublist (braces tokens) ∧ BalancedBraces kept ∧
      n + kept.length = (braces tokens).length} (unmatchedBraces tokens).length := by
  constructor
  · exact ⟨_, List.filter_sublist, balanced_filter_notMem hnodup,
      length_add_length_filter_notMem hnodup (sublist_unmatchedBraces tokens)⟩
  · rintro n ⟨kept, hkept, hbalanced, hlength⟩
    have := length_unmatchedBraces_le hkept hbalanced
    omega

theorem unmatchedBraces_eq_nil_iff (hnodup : (braces tokens).Nodup) :
    unmatchedBraces tokens = [] ↔ BalancedBraces (braces tokens) := by
  constructor
  · intro hnone
    simpa [hnone] using balanced_filter_notMem hnodup
  · intro hbalanced
    have := length_unmatchedBraces_le (List.Sublist.refl _) hbalanced
    exact List.eq_nil_of_length_eq_zero (by omega)

/-- The reported braces are the fewest without which the braces of the document are balanced. -/
theorem fewest_braces_are_reported (text : List Char) (uri : Option String) (catalog : Catalog)
    (settings : Settings) (memo : Memo) :
    let a := Analysis.ofText text uri catalog
    ∃ reported : List Token,
      (unmatchedBrace.run ⟨a, settings⟩).after memo =
        (.ok (reported.map fun t => ⟨t.range, "Unmatched brackets", .warning, "PF-W101",
          "unmatched-brace"⟩), memo) ∧
        BracesReported a.document reported := by
  intro a
  have hordered : (braces a.document.codeTokens).Pairwise Token.Precedes :=
    (Document.pairwise_codeTokens text uri).filter _
  have hranges : (braces a.document.codeTokens).Pairwise fun t u => t.range ≠ u.range :=
    hordered.imp_of_mem fun ht _ h => Token.range_ne_of_precedes h (List.mem_filter.1 ht).2
  have hnodup : (braces a.document.codeTokens).Nodup :=
    hranges.imp fun hne heq => hne (congrArg Token.range heq)
  have hsub := sublist_unmatchedBraces a.document.codeTokens
  refine ⟨unmatchedBraces a.document.codeTokens, ?_, ?_⟩
  · rw [show (unmatchedBrace.run ⟨a, settings⟩).after memo =
      (.ok (((unmatchedBraces a.document.codeTokens).map
        fun t => (⟨t.range, "Unmatched brackets"⟩ : Finding)).map unmatchedBrace.diagnostic), memo)
      from rfl, List.map_map]
    rfl
  · constructor
    case written => exact fun l hl c hc k => Document.exists_brace_iff hl hc k
    case inOrder => exact hsub
    case once => exact List.pairwise_map.2 (hranges.sublist hsub)
    case closingFirst =>
      obtain ⟨closing, opening, heq, hclosing, hopening⟩ :=
        exists_unmatchedBracesFrom_eq a.document.codeTokens (List.forall_mem_nil _)
      have hpair := hordered.sublist hsub
      rw [unmatchedBraces, heq] at hpair ⊢
      intro c hc o ho hcsign hosign
      refine (List.pairwise_append.1 hpair).2.2 c ?_ o ?_
      · refine (List.mem_append.1 hc).resolve_right fun hc => ?_
        rw [Token.isSymbol_closing_of_opening (hopening c hc)] at hcsign
        exact absurd hcsign Bool.false_ne_true
      · refine (List.mem_append.1 ho).resolve_left fun ho => ?_
        have hcsign := hclosing o ho
        rw [Token.isSymbol_closing_of_opening hosign] at hcsign
        exact absurd hcsign Bool.false_ne_true
    case balanced => exact balanced_filter_notMem hnodup
    case fewest => exact isLeast_length_unmatchedBraces hnodup
    case none_iff => exact unmatchedBraces_eq_nil_iff hnodup

/-- Braces over several lines; those in a literal and in a comment count for nothing. -/
example : (unmatchedBraces (Document.ofText
    "\x7d x = \x7b a: \"\x7d\", /* \x7d\n\x7d */ b: \x7b\n\x7d".toList none).codeTokens).map
      (fun t => (t.text, t.line, t.column)) = [("\x7d", 0, 0), ("\x7b", 0, 6)] := by
  decide +kernel

end Rule

end Polyloft
