import Polyloft.Proofs.Query.Inheritance
import Polyloft.Proofs.Query.Member
import Polyloft.Proofs.Token.Bracketed

/-!
# Polyloft.Proofs.Query.Receiver

The expression before a dot. Inference reads an expression from left to right: a name, a string,
`this` or a group in brackets, and behind it member names, calls and indexings in any number
(`Chain`). The receiver of a member is found from right to left, counting parentheses and square
brackets together. It is the whole chain, of any length and nesting, exactly when every member name
in the chain is an identifier or `this` (`receiver_of_chain`); then hover, go-to-definition and
completion are all about the whole chain.

A member name may also be a reserved word, as in `xs.join(1)`. Such a name stops the walk, and what
is found is only what stands behind it (`receiver_behind_reserved_name`).

## Proof shape

The count passes over a bracketed sequence from any depth (`Bracketed.groupBack?_reverse`), so the
walk passes over a whole group (`IsGroup.chainBack?_reverse`) and over a readable name with its dot
(`chainBack?_name`). The chain is then read by induction on how it is built, last part first
(`Chain.exists_chainBack?`).
-/

namespace Polyloft

/-! ### Chains -/

/-- A bracketed sequence in parentheses or square brackets. -/
inductive IsGroup : List Token → Prop
  | mk {o c : Token} {inside : List Token} : o.Pairs c → o.text = "(" ∨ o.text = "[" →
      Bracketed inside → IsGroup (o :: (inside ++ [c]))

/-- The name stands behind a dot in expressions. -/
def Token.IsMemberName (t : Token) : Prop :=
  t.kind = .identifier ∨ t.kind = .keyword

/-- A name, a string, `this` or a group, and what may follow it: members, calls and indexings. The
member names are listed in order. -/
inductive Chain : (names tokens : List Token) → Prop
  | start {t : Token} : t.isChainStart = true → Chain [] [t]
  | group {g : List Token} : IsGroup g → Chain [] g
  | member {names ts : List Token} {dot name : Token} : Chain names ts → dot.isSymbol "." = true →
      name.IsMemberName → Chain (names ++ [name]) (ts ++ [dot, name])
  | bracket {names ts g : List Token} : Chain names ts → IsGroup g → Chain names (ts ++ g)

/-- A member name that is no reserved word, but for `this`. -/
def Token.IsReadable (t : Token) : Prop :=
  t.kind = .identifier ∨ t.isKeyword "this" = true

/-- What may stand before a chain on its line: nothing that the chain continues. -/
structure Precedes (before chain : List Token) : Prop where
  /-- The chain is no member of something. -/
  noDot : ∀ t ∈ before.getLast?, t.isSymbol "." = false
  /-- A group at its start is no call and no index. -/
  noCallee : (∃ o ∈ chain.head?, o.isSymbolIn ["(", "["] = true) → ∀ t ∈ before.getLast?,
    t.isChainStart = false ∧ t.isSymbolIn [")", "]"] = false

variable {names before chain ts rest : List Token} {t dot name : Token}

/-! ### Groups from the right -/

theorem isSymbolIn_of_isBracket (h : t.isBracket = false) {ss : List String}
    (hss : ss ⊆ ["(", "[", "\x7b", ")", "]", "\x7d"]) : t.isSymbolIn ss = false := by
  rw [Bool.eq_false_iff]
  intro hmem
  rw [Token.isSymbolIn, Bool.and_eq_true, List.contains_iff_mem] at hmem
  refine Bool.eq_false_iff.1 h ?_
  rw [Token.isBracket, Token.isSymbolIn, hmem.1, List.contains_iff_mem.2 (hss hmem.2)]
  rfl

theorem groupBack?_of_other (hclosing : t.isSymbolIn [")", "]"] = false)
    (hopening : t.isSymbolIn ["(", "["] = false) (depth : Nat) (rest : List Token) :
    groupBack? depth (t :: rest) = (groupBack? depth rest).map fun g => (t :: g.1, g.2) := by
  simp [groupBack?.eq_def depth (t :: rest), hclosing, hopening]

/-- Counting from the right passes over a group that starts inside another one. Braces are not
counted. -/
theorem Token.Pairs.groupBack?_reverse {o c : Token} {inside : List Token} (hpair : o.Pairs c)
    (hinside : ∀ depth rest, groupBack? (depth + 1) (inside.reverse ++ rest) =
      (groupBack? (depth + 1) rest).map fun g => (inside.reverse ++ g.1, g.2))
    (depth : Nat) (rest : List Token) :
    groupBack? (depth + 1) (c :: (inside.reverse ++ (o :: rest))) =
      (groupBack? (depth + 1) rest).map fun g => (c :: (inside.reverse ++ (o :: g.1)), g.2) := by
  obtain ⟨ho, hbrackets | hbrackets | hbrackets⟩ := hpair.texts
  case inr.inr =>
    rw [groupBack?_of_other (by simp [isSymbolIn, hbrackets.2])
        (by simp [isSymbolIn, hbrackets.2]), hinside,
      groupBack?_of_other (by simp [isSymbolIn, hbrackets.1]) (by simp [isSymbolIn, hbrackets.1]),
      Option.map_map, Option.map_map]
    rfl
  all_goals
    have hclosing : c.isSymbolIn [")", "]"] = true := by
      simp [isSymbolIn, hpair.kind_eq, hbrackets.2]
    have hopening : o.isSymbolIn ["(", "["] = true := by simp [isSymbolIn, ho, hbrackets.1]
    have hno : o.isSymbolIn [")", "]"] = false := by simp [isSymbolIn, hbrackets.1]
    rw [groupBack?.eq_def (depth + 1) (c :: _)]
    simp only [hclosing, if_true]
    rw [hinside, groupBack?.eq_def _ (o :: rest)]
    simp [hno, hopening, Function.comp_def]

/-- Counting from the right passes over a bracketed sequence inside of a group. -/
theorem Bracketed.groupBack?_reverse (h : Bracketed ts) (depth : Nat) (rest : List Token) :
    groupBack? (depth + 1) (ts.reverse ++ rest) =
      (groupBack? (depth + 1) rest).map fun g => (ts.reverse ++ g.1, g.2) := by
  induction h generalizing depth rest with
  | nil => simp
  | plain hbracket _ ih =>
      rw [List.reverse_cons, List.append_assoc, ih, List.singleton_append,
        groupBack?_of_other (isSymbolIn_of_isBracket hbracket (by simp))
          (isSymbolIn_of_isBracket hbracket (by simp)), Option.map_map]
      simp [Function.comp_def]
  | @group o c inside more hpair _ _ ihinside ih =>
      have hsplit : (o :: (inside ++ c :: more)).reverse ++ rest =
          more.reverse ++ (c :: (inside.reverse ++ (o :: rest))) := by simp
      rw [hsplit, ih, hpair.groupBack?_reverse ihinside, Option.map_map]
      simp [Function.comp_def]

/-- A group is entered from its end, and left at its start. -/
theorem IsGroup.exists_groupBack? {g : List Token} (h : IsGroup g) (rest : List Token) :
    ∃ c ts, g.reverse ++ rest = c :: ts ∧ c.isSymbolIn [")", "]"] = true ∧
      groupBack? 0 (c :: ts) = some (g.reverse, rest) := by
  obtain ⟨hpair, htext, hinside⟩ := h
  rename_i o c inside
  have hclosing : c.isSymbolIn [")", "]"] = true := by
    obtain ⟨-, ⟨ho, hc⟩ | ⟨ho, hc⟩ | ⟨ho, hc⟩⟩ := hpair.texts
    · simp [Token.isSymbolIn, hpair.kind_eq, hc]
    · simp [Token.isSymbolIn, hpair.kind_eq, hc]
    · simp [ho] at htext
  have hopening : o.isSymbolIn ["(", "["] = true := by
    simp [Token.isSymbolIn, hpair.texts.1, htext]
  have hno : o.isSymbolIn [")", "]"] = false := by
    rcases htext with htext | htext <;> simp [Token.isSymbolIn, htext]
  refine ⟨c, inside.reverse ++ (o :: rest), by simp, hclosing, ?_⟩
  rw [groupBack?.eq_def 0 (c :: _)]
  simp only [hclosing, if_true]
  rw [hinside.groupBack?_reverse, groupBack?.eq_def _ (o :: rest)]
  simp [hno, hopening]

/-! ### The walk to the left -/

theorem chainBack?_of_groupBack? {group : List Token} (hclosing : t.isSymbolIn [")", "]"] = true)
    (h : groupBack? 0 (t :: ts) = some (group, rest)) :
    chainBack? (t :: ts) = (chainBack? rest).map (group ++ ·) := by
  rw [chainBack?.eq_def]
  simp only [hclosing, if_true]
  split
  · rename_i hnone
    exact absurd (hnone.symm.trans h) (by simp)
  · rename_i hsome
    obtain ⟨rfl, rfl⟩ := Prod.mk.inj (Option.some.inj (hsome.symm.trans h))
    rfl

/-- The walk passes over a group. -/
theorem IsGroup.chainBack?_reverse {g : List Token} (h : IsGroup g) (rest : List Token) :
    chainBack? (g.reverse ++ rest) = (chainBack? rest).map (g.reverse ++ ·) := by
  obtain ⟨c, ts, hsplit, hclosing, hback⟩ := h.exists_groupBack? rest
  rw [hsplit, chainBack?_of_groupBack? hclosing hback]

theorem isSymbolIn_eq_false_of_isChainStart (h : t.isChainStart = true) (ss : List String) :
    t.isSymbolIn ss = false := by
  simp only [Token.isChainStart, Token.isKeyword, Bool.or_eq_true, Bool.and_eq_true,
    beq_iff_eq] at h
  rcases h with (h | h) | ⟨h, -⟩ <;> simp [Token.isSymbolIn, h]

/-- The walk passes over a name that it reads, and over the dot before it. -/
theorem chainBack?_name (hname : name.isChainStart = true) (hdot : dot.isSymbol "." = true)
    (rest : List Token) :
    chainBack? (name :: dot :: rest) = (chainBack? rest).map ([name, dot] ++ ·) := by
  rw [chainBack?]
  simp [isSymbolIn_eq_false_of_isChainStart hname, hname, hdot]

/-- The walk ends with a token that starts a chain if no dot stands before it. -/
theorem chainBack?_start (h : t.isChainStart = true)
    (hdot : ∀ d ∈ rest.head?, d.isSymbol "." = false) :
    chainBack? (t :: rest) = some [t] := by
  rw [chainBack?.eq_def]
  simp only [isSymbolIn_eq_false_of_isChainStart h, h, if_true, Bool.false_eq_true, if_false]
  cases rest with
  | nil => rfl
  | cons d rest => simp [hdot d rfl]

/-- The walk ends before a token that is no part of a chain. -/
theorem chainBack?_stop (h : ∀ t ∈ ts.head?, t.isChainStart = false ∧
    t.isSymbolIn [")", "]"] = false) : chainBack? ts = some [] := by
  rw [chainBack?.eq_def]
  cases ts with
  | nil => rfl
  | cons t ts => simp [(h t rfl).1, (h t rfl).2]

/-! ### Reading a chain -/

theorem Chain.ne_nil (h : Chain names chain) : chain ≠ [] := by
  induction h with
  | start => simp
  | group hg => cases hg; simp
  | member => simp
  | bracket _ _ ih => simp [ih]

theorem Precedes.of_append (h : Precedes before (chain ++ rest)) (hne : chain ≠ []) :
    Precedes before chain := by
  have hhead : (chain ++ rest).head? = chain.head? := List.head?_append_of_ne_nil chain hne
  exact ⟨h.noDot, hhead ▸ h.noCallee⟩

/-- The part of a chain that stands behind its last member name that is not readable, and so the
whole chain if there is no such name. -/
inductive ReadPart (names chain : List Token) : List Token → Prop
  | whole : (∀ n ∈ names, n.IsReadable) → ReadPart names chain chain
  | behind {front part earlier later : List Token} {dot name : Token} :
      chain = front ++ dot :: name :: part → names = earlier ++ name :: later →
      ¬ name.IsReadable → (∀ n ∈ later, n.IsReadable) → ReadPart names chain part

theorem ReadPart.append {part : List Token} (h : ReadPart names chain part) (g : List Token) :
    ReadPart names (chain ++ g) (part ++ g) := by
  cases h with
  | whole hnames => exact .whole hnames
  | @behind front _ _ _ dot name hchain hnames hname hlater =>
      have hsplit : chain ++ g = front ++ dot :: name :: (part ++ g) := by simp [hchain]
      exact .behind hsplit hnames hname hlater

theorem ReadPart.append_member {part : List Token} (h : ReadPart names chain part)
    (hname : name.IsReadable) :
    ReadPart (names ++ [name]) (chain ++ [dot, name]) (part ++ [dot, name]) := by
  cases h with
  | whole hnames =>
      refine .whole ?_
      rw [List.forall_mem_append]
      exact ⟨hnames, by simpa using hname⟩
  | @behind front part earlier later dot' name' hchain hnames hstop hlater =>
      have hsplit : chain ++ [dot, name] = front ++ dot' :: name' :: (part ++ [dot, name]) := by
        simp [hchain]
      have hlisted : names ++ [name] = earlier ++ name' :: (later ++ [name]) := by simp [hnames]
      refine .behind hsplit hlisted hstop ?_
      rw [List.forall_mem_append]
      exact ⟨hlater, by simpa using hname⟩

/-- A member name is readable exactly when it could start a chain itself. -/
theorem isChainStart_eq_of_isMemberName (h : name.IsMemberName) :
    name.isChainStart = true ↔ name.IsReadable := by
  rw [Token.isChainStart, Token.IsReadable]
  rcases h with h | h <;> simp [h]

/-- What the walk to the left reads of a chain. -/
theorem Chain.exists_chainBack? (h : Chain names chain) (hbefore : Precedes before chain) :
    ∃ part, ReadPart names chain part ∧
      chainBack? (chain.reverse ++ before.reverse) = some part.reverse := by
  induction h with
  | @start t ht =>
      have hdot : ∀ d ∈ before.reverse.head?, d.isSymbol "." = false := by
        rw [List.head?_reverse]
        exact hbefore.noDot
      exact ⟨[t], .whole (by simp), chainBack?_start ht hdot⟩
  | @group g hg =>
      -- Nothing that a call or an index could belong to stands before the group.
      have hfirst : ∃ o ∈ g.head?, o.isSymbolIn ["(", "["] = true := by
        obtain ⟨hpair, htext, -⟩ := hg
        refine ⟨_, rfl, ?_⟩
        simp [Token.isSymbolIn, hpair.texts.1, htext]
      refine ⟨g, .whole (by simp), ?_⟩
      rw [hg.chainBack?_reverse, chainBack?_stop]
      · simp
      · rw [List.head?_reverse]
        exact hbefore.noCallee hfirst
  | @member names ts dot name hts hdot hname ih =>
      have hreverse : (ts ++ [dot, name]).reverse ++ before.reverse =
          name :: dot :: (ts.reverse ++ before.reverse) := by simp
      rw [hreverse]
      by_cases hread : name.IsReadable
      · obtain ⟨part, hpart, hback⟩ := ih (hbefore.of_append hts.ne_nil)
        refine ⟨part ++ [dot, name], hpart.append_member hread, ?_⟩
        rw [chainBack?_name ((isChainStart_eq_of_isMemberName hname).2 hread) hdot, hback]
        simp
      · refine ⟨[], .behind rfl rfl hread (by simp), ?_⟩
        refine chainBack?_stop ?_
        rintro t ⟨⟩
        have hkind : name.kind = .keyword := hname.resolve_left fun h => hread (.inl h)
        refine ⟨?_, by simp [Token.isSymbolIn, hkind]⟩
        rw [Bool.eq_false_iff]
        exact fun hstart => hread ((isChainStart_eq_of_isMemberName hname).1 hstart)
  | @bracket names ts g hts hg ih =>
      obtain ⟨part, hpart, hback⟩ := ih (hbefore.of_append hts.ne_nil)
      refine ⟨part ++ g, hpart.append g, ?_⟩
      rw [List.reverse_append, List.append_assoc, hg.chainBack?_reverse, hback]
      simp

/-- Only the whole chain is as long as the chain. -/
theorem ReadPart.eq_iff {part : List Token} (h : ReadPart names chain part) :
    part = chain ↔ ∀ n ∈ names, n.IsReadable := by
  cases h with
  | whole hnames => exact iff_of_true rfl hnames
  | @behind front part earlier later dot name hchain hnames hname hlater =>
      refine iff_of_false ?_ ?_
      · intro heq
        have hlength := congrArg List.length hchain
        rw [heq] at hlength
        simp only [List.length_append, List.length_cons] at hlength
        omega
      · intro hall
        exact hname (hall name (by simp [hnames]))

/-! ### Queries behind a chain -/

namespace Analysis

variable (a : Analysis)

/-- Behind a dot, with the given tokens before it, nearest first, the queries are about members of
the receiver: hover and go-to-definition of a word there, and completion of a part of a word. -/
structure AsksAbout (dot : Token) (tokens receiver : List Token) : Prop where
  hover : ∀ position word resolver queried start,
    a.queriedWord? position word = some (queried, start) →
    a.document.before? position.line start = some (dot :: tokens) →
    a.hover position word resolver = a.receiverHover receiver queried position.line
  definition : ∀ position word resolver queried start,
    a.queriedWord? position word = some (queried, start) →
    a.document.before? position.line start = some (dot :: tokens) →
    a.definition position word resolver = do
      let type ← a.inferTokens receiver position.line
      let member ← Infer.ofExcept (a.memberOf? queried type.alternatives)
      pure (member.map a.locationOf)
  complete : ∀ position line typed, a.document.line? position.line = some line →
    typedPart line.codeTokens position.character = (typed, dot :: tokens) →
    a.complete position =
      a.memberItems receiver position.line >>= fun items => pure (matchingItems typed items)

variable {a}

theorem asksAbout_of_receiverBack (hdot : dot.isSymbol "." = true)
    (hreceiver : receiverBack ts ≠ []) : a.AsksAbout dot ts (receiverBack ts) := by
  constructor
  · intro position word resolver queried start hqueried htokens
    rw [Analysis.hover, hqueried]
    simp only [Document.receiverAt?_eq htokens hdot hreceiver]
  · intro position word resolver queried start hqueried htokens
    rw [Analysis.definition, hqueried]
    simp only [Document.receiverAt?_eq htokens hdot hreceiver]
  · intro position line typed hline htyped
    refine complete_of_askedMember? ?_
    rw [Document.askedMember?, hline, Option.bind_some, htyped]
    simp [hdot, hreceiver]

/-- The receiver before a dot is the part of the chain that the walk reads, and so the whole chain
exactly when every member name in it is an identifier or `this`. Then the queries behind the dot are
about the whole chain. -/
theorem receiver_of_chain (a : Analysis) (hchain : Chain names chain)
    (hbefore : Precedes before chain) (hdot : dot.isSymbol "." = true) :
    ReadPart names chain (receiverBack (before ++ chain).reverse) ∧
      (receiverBack (before ++ chain).reverse = chain ↔ ∀ n ∈ names, n.IsReadable) ∧
      ((∀ n ∈ names, n.IsReadable) → a.AsksAbout dot (before ++ chain).reverse chain) := by
  obtain ⟨part, hpart, hback⟩ := hchain.exists_chainBack? hbefore
  have hreceiver : receiverBack (before ++ chain).reverse = part := by
    rw [receiverBack, List.reverse_append, hback, Option.getD_some, List.reverse_reverse]
  rw [hreceiver]
  refine ⟨hpart, hpart.eq_iff, ?_⟩
  intro hnames
  obtain rfl := hpart.eq_iff.2 hnames
  have hasks := asksAbout_of_receiverBack (a := a) hdot (hreceiver ▸ hchain.ne_nil)
  rwa [hreceiver] at hasks

/-- A member of an element of a member of a group. -/
def memberOfElement : List Char :=
  "(a).b[1].c".toList

/-- The whole expression before the last dot is the receiver. -/
theorem receiver_of_chain_memberOfElement :
    let a := Analysis.ofText memberOfElement none {}
    ∃ names chain dot, Chain names chain ∧ Precedes [] chain ∧ (∀ n ∈ names, n.IsReadable) ∧
      a.document.before? 0 9 = some (dot :: ([] ++ chain).reverse) ∧ dot.isSymbol "." = true ∧
      chain.map Token.text = ["(", "a", ")", ".", "b", "[", "1", "]"] ∧
      receiverBack ([] ++ chain).reverse = chain ∧
      a.AsksAbout dot ([] ++ chain).reverse chain := by
  intro a
  let name : Token := ⟨.identifier, "b", 0, 4, true⟩
  let chain : List Token := [⟨.punct, "(", 0, 0, true⟩, ⟨.identifier, "a", 0, 1, true⟩,
    ⟨.punct, ")", 0, 2, true⟩, ⟨.operator, ".", 0, 3, true⟩, name,
    ⟨.punct, "[", 0, 5, true⟩, ⟨.int, "1", 0, 6, true⟩, ⟨.punct, "]", 0, 7, true⟩]
  have hgroup : IsGroup [⟨.punct, "(", 0, 0, true⟩, ⟨.identifier, "a", 0, 1, true⟩,
      ⟨.punct, ")", 0, 2, true⟩] :=
    @IsGroup.mk _ _ [_] ⟨rfl, rfl, rfl⟩ (.inl rfl) (.plain rfl .nil)
  have hindex : IsGroup [⟨.punct, "[", 0, 5, true⟩, ⟨.int, "1", 0, 6, true⟩,
      ⟨.punct, "]", 0, 7, true⟩] :=
    @IsGroup.mk _ _ [_] ⟨rfl, rfl, rfl⟩ (.inr rfl) (.plain rfl .nil)
  have hchain : Chain [name] chain := .bracket (.member (.group hgroup) rfl (.inl rfl)) hindex
  have hbefore : Precedes [] chain := ⟨by simp, by simp⟩
  have hnames : ∀ n ∈ [name], n.IsReadable := by
    rintro n hn
    obtain rfl := List.mem_singleton.1 hn
    exact .inl rfl
  have hdot : (⟨.operator, ".", 0, 8, true⟩ : Token).isSymbol "." = true := rfl
  have hread := receiver_of_chain a hchain hbefore hdot
  exact ⟨[name], chain, _, hchain, hbefore, hnames, by decide +kernel, rfl, rfl,
    hread.2.1.2 hnames, hread.2.2 hnames⟩

/-- A method called on the result of a method whose name is a reserved word. -/
def memberOfJoin : List Char :=
  "var xs = [\"a\"]\nxs.join(1).length()".toList

/-- What is found before the last dot is only what stands behind the reserved word. -/
theorem receiver_behind_reserved_name :
    let a := Analysis.ofText memberOfJoin none {}
    ∃ names chain dot part, Chain names chain ∧ Precedes [] chain ∧ dot.isSymbol "." = true ∧
      a.queriedWord? ⟨1, 11⟩ none = some ("length", 11) ∧
      a.document.before? 1 11 = some (dot :: ([] ++ chain).reverse) ∧
      a.document.receiverAt? 1 11 = some part ∧
      chain.map Token.text = ["xs", ".", "join", "(", "1", ")"] ∧
      part.map Token.text = ["(", "1", ")"] := by
  intro a
  let name : Token := ⟨.keyword, "join", 1, 3, true⟩
  let part : List Token := [⟨.punct, "(", 1, 7, true⟩, ⟨.int, "1", 1, 8, true⟩,
    ⟨.punct, ")", 1, 9, true⟩]
  have hgroup : IsGroup part := @IsGroup.mk _ _ [_] ⟨rfl, rfl, rfl⟩ (.inl rfl) (.plain rfl .nil)
  have hchain : Chain [name]
      ([⟨.identifier, "xs", 1, 0, true⟩] ++ [⟨.operator, ".", 1, 2, true⟩, name] ++ part) :=
    .bracket (.member (.start rfl) rfl (.inr rfl)) hgroup
  exact ⟨[name], _, ⟨.operator, ".", 1, 10, true⟩, part, hchain, ⟨by simp, by simp [name, part]⟩,
    rfl, by decide +kernel, by decide +kernel, by decide +kernel, rfl, rfl⟩

end Analysis

end Polyloft
